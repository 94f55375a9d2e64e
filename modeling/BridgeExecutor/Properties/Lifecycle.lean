import BridgeExecutor.Properties.History

/-!
# The life of an actions set

A set is queued, and then executed once, or canceled once, or left to expire.

Safety under re-entrancy rests on one thing: `execute` marks the set before it hands control to
anybody, so whoever calls back finds a set that is not `Queued` any more.

* `Move.marks` — which moves mark a set
* `settled_of_reachable` — the marks are what the journal says, each set is settled once at most
* `lifecycle` — all transitions of a set
-/

namespace BridgeExecutor

open Reentrant BridgeExecutorBase

variable {H X Φ : Type}

/-- The message executes or cancels the set `id`. -/
def Fn.settles (id : Nat) : Fn Φ → Bool
  | .execute id' => id' == id
  | .cancel id' => id' == id
  | _ => false

/-! ## Marks -/

/-- How a set is settled. -/
inductive Mark where
  | executed
  | canceled

namespace Mark

/-- The function that makes the mark. -/
def fn (id : Nat) : Mark → Fn Φ
  | executed => .execute id
  | canceled => .cancel id

/-- What `getCurrentState` says of a set with the mark. -/
def state : Mark → ActionsSetState
  | executed => .executed
  | canceled => .canceled

def isSet (a : ActionsSet) : Mark → Bool
  | executed => a.executed
  | canceled => a.canceled

def set (a : ActionsSet) : Mark → ActionsSet
  | executed => { a with executed := true }
  | canceled => { a with canceled := true }

theorem fn_inj {k k' : Mark} {id id' : Nat} :
    (k.fn id : Fn Φ) = k'.fn id' ↔ k = k' ∧ id = id' := by
  cases k <;> cases k' <;> simp [fn]

theorem settles_eq_true {id : Nat} {f : Fn Φ} :
    f.settles id = true ↔ ∃ k : Mark, f = k.fn id := by
  constructor
  · intro h
    cases f with
    | execute id' => exact ⟨executed, by simpa [Fn.settles, fn] using h⟩
    | cancel id' => exact ⟨canceled, by simpa [Fn.settles, fn] using h⟩
    | _ => cases h
  · rintro ⟨k, rfl⟩
    cases k <;> simp [fn, Fn.settles]

/-- Making a mark leaves the other one. -/
theorem isSet_set {k k' : Mark} {a : ActionsSet} :
    k'.isSet (k.set a) = true ↔ k'.isSet a = true ∨ k = k' := by
  cases k <;> cases k' <;> simp [isSet, set]

theorem isSet_congr {a a' : ActionsSet} (hexecuted : a'.executed = a.executed)
    (hcanceled : a'.canceled = a.canceled) (k : Mark) : k.isSet a' = k.isSet a := by
  cases k with
  | executed => exact hexecuted
  | canceled => exact hcanceled

theorem not_isSet_of_live {a : ActionsSet} (h : a.Live) (k : Mark) : k.isSet a = false := by
  cases k with
  | executed => exact h.1
  | canceled => exact h.2

theorem isSet_of_evolves {s s' : State H X} (h : s.Evolves s') {id : Nat} {k : Mark}
    (hk : k.isSet (s.actionsSets id) = true) : k.isSet (s'.actionsSets id) = true := by
  cases k with
  | executed => exact h.executed id hk
  | canceled => exact h.canceled id hk

/-- `getCurrentState` reports the mark, if there is one only. -/
theorem getCurrentState_eq {now : UInt256} {s : State H X} {id : Nat} {k : Mark}
    (hexcl : ∀ k', k'.isSet (s.actionsSets id) = true → k.isSet (s.actionsSets id) = true →
      k' = k) :
    getCurrentState now s id = .ok k.state ↔
      id < s.actionsSetCounter ∧ k.isSet (s.actionsSets id) = true := by
  cases k with
  | executed =>
    rw [state, getCurrentState_eq_executed]
    refine ⟨fun h => ⟨h.1, h.2.2⟩, fun h => ⟨h.1, ?_, h.2⟩⟩
    exact Bool.eq_false_iff.mpr fun hcan => nomatch hexcl canceled hcan h.2
  | canceled => exact getCurrentState_eq_canceled

end Mark

/-- A set that was expired is `Queued` again: the grace period has been raised. -/
theorem gracePeriod_lt_of_expired_queued {now now' : UInt256} {s s' : State H X} {id : Nat}
    (hev : s.Evolves s') (hnow : now ≤ now') (h : getCurrentState now s id = .ok .expired)
    (h' : getCurrentState now' s' id = .ok .queued) : s.gracePeriod < s'.gracePeriod := by
  obtain ⟨hid, -, -, hpast⟩ := getCurrentState_eq_expired.mp h
  obtain ⟨-, -, -, hin⟩ := getCurrentState_eq_queued.mp h'
  rw [hev.executionTime id hid] at hin
  have hle : now.toNat ≤ now'.toNat := hnow
  rw [BitVec.lt_def]
  omega

/-! ## The moves that mark a set -/

section

variable [DecidableEq H] {K : Keccak H} {child : Child X Φ} {this : Address}

/-- **A set is marked by `execute` and `cancel` alone, and only when it is `Queued`.** -/
theorem Move.marks {l : Option (Message Φ)} {ctx ctx' : List (ExecOpen H X Φ)}
    {w w' : ExecWorld H X Φ} (h : Move K child this l ctx w ctx' w') :
    (∃ m id k, l = some m ∧ m.fn = Mark.fn id k ∧
      (m.fn = .cancel id → m.sender = w.state.guardian) ∧
      getCurrentState w.now w.state id = .ok .queued ∧
      w'.journal = w.journal ++ [⟨w.now, m, w.state⟩] ∧
      w'.state.actionsSets
        = Function.update w.state.actionsSets id (k.set (w.state.actionsSets id))) ∨
    ((∀ id (k : Mark), k.isSet (w'.state.actionsSets id) = k.isSet (w.state.actionsSets id)) ∧
      (w'.journal = w.journal ∨ ∃ m, l = some m ∧ (∀ id, m.fn.settles id = false) ∧
        w'.journal = w.journal ++ [⟨w.now, m, w.state⟩])) := by
  cases h with
  | @write _ _ m s hs hw =>
    cases hf : m.fn with
    | cancel id =>
      rw [hf] at hw
      cases hw with
      | cancel hg hq =>
        exact Or.inl ⟨m, id, .canceled, rfl, hf, fun _ => hg, hq, rfl, rfl⟩
    | own f =>
      refine Or.inr ⟨fun id k => ?_, Or.inr ⟨m, rfl, by simp [Fn.settles, hf], rfl⟩⟩
      rw [hf] at hw
      cases hw with
      | write hh => rfl
      | @queue _ a hh hwf hsum hnd hnone =>
        by_cases hid : id = w.state.actionsSetCounter
        · subst hid
          show k.isSet (Function.update w.state.actionsSets w.state.actionsSetCounter _ _) = _
          rw [Function.update_self]
          exact k.isSet_congr rfl rfl
        · exact congrArg k.isSet (State.queued_actionsSets_of_ne hid a _)
    | execute id => rw [hf] at hw; cases hw
    | executeDelegateCall target data => rw [hf] at hw; cases hw
    | receiveFunds =>
      refine Or.inr ⟨fun id k => ?_, Or.inr ⟨m, rfl, by simp [Fn.settles, hf], rfl⟩⟩
      rw [hf] at hw
      cases hw
      simp
    | _ =>
      refine Or.inr ⟨fun id k => ?_, Or.inr ⟨m, rfl, by simp [Fn.settles, hf], rfl⟩⟩
      rw [hf] at hw
      cases hw
      rfl
  | @begin _ _ m id a hf hq ht ha =>
    refine Or.inl ⟨m, id, .executed, rfl, hf, fun hf' => ?_, hq, rfl, started_actionsSets ..⟩
    exact nomatch hf.symm.trans hf'
  | @delegate _ _ m target data hf hs hne =>
    exact Or.inr ⟨fun id k => rfl, Or.inr ⟨m, rfl, by simp [Fn.settles, hf], rfl⟩⟩
  | _ => exact Or.inr ⟨fun id k => rfl, Or.inl rfl⟩

theorem Move.becomes_marked {l : Option (Message Φ)} {ctx ctx' : List (ExecOpen H X Φ)}
    {w w' : ExecWorld H X Φ} (h : Move K child this l ctx w ctx' w') {id : Nat} {k : Mark}
    (hw : k.isSet (w.state.actionsSets id) = false)
    (hw' : k.isSet (w'.state.actionsSets id) = true) :
    ∃ m, l = some m ∧ m.fn = k.fn id ∧ (m.fn = .cancel id → m.sender = w.state.guardian) ∧
      getCurrentState w.now w.state id = .ok .queued := by
  rcases h.marks with ⟨m, id', k', hl, hf, hg, hq, -, hset⟩ | ⟨hsame, -⟩
  · rw [hset] at hw'
    by_cases hid : id = id'
    · subst hid
      rw [Function.update_self, Mark.isSet_set, hw] at hw'
      rcases hw' with hw' | rfl
      · cases hw'
      · exact ⟨m, hl, hf, hg, hq⟩
    · rw [Function.update_of_ne hid, hw] at hw'
      cases hw'
  · rw [hsame, hw] at hw'
    cases hw'

end

/-! ## The journal -/

/-- The marks are what the journal says. -/
structure Settled (w : ExecWorld H X Φ) : Prop where
  marked : ∀ id (k : Mark), k.isSet (w.state.actionsSets id) = true ↔
    ∃ r ∈ w.journal, r.msg.fn = k.fn id
  once : ∀ id, (w.journal.filter fun r => r.msg.fn.settles id).length ≤ 1
  checked : ∀ r ∈ w.journal, ∀ id, r.msg.fn.settles id = true →
    getCurrentState r.now r.pre id = .ok .queued ∧
      (r.msg.fn = .cancel id → r.msg.sender = r.pre.guardian)

namespace Settled

variable {w w' : ExecWorld H X Φ}

/-- A set without a mark has not been settled. -/
theorem not_settles (h : Settled w) {id : Nat} (hlive : (w.state.actionsSets id).Live) :
    ∀ r ∈ w.journal, r.msg.fn.settles id = false := by
  intro r hr
  rw [← Bool.not_eq_true, Mark.settles_eq_true]
  rintro ⟨k, hf⟩
  have hset := (h.marked id k).mpr ⟨r, hr, hf⟩
  rw [Mark.not_isSet_of_live hlive] at hset
  cases hset

/-- One more accepted call. -/
theorem append (h : Settled w) {r : ExecRecord H X Φ} (hj : w'.journal = w.journal ++ [r])
    (hmarked : ∀ id (k : Mark), k.isSet (w'.state.actionsSets id) = true ↔
      k.isSet (w.state.actionsSets id) = true ∨ r.msg.fn = k.fn id)
    (hchecked : ∀ id, r.msg.fn.settles id = true → (w.state.actionsSets id).Live ∧
      getCurrentState r.now r.pre id = .ok .queued ∧
        (r.msg.fn = .cancel id → r.msg.sender = r.pre.guardian)) : Settled w' where
  marked id k := by rw [hmarked, h.marked, hj]; simp [or_and_right, exists_or]
  once id := by
    rw [hj, List.filter_append, List.length_append]
    cases hs : r.msg.fn.settles id with
    | true =>
      -- what is settled now has not been settled before
      have hnone : w.journal.filter (fun r => r.msg.fn.settles id) = [] := by
        rw [List.filter_eq_nil_iff]
        intro r' hr'
        rw [h.not_settles (hchecked id hs).1 r' hr']
        nofun
      rw [hnone]
      simp [hs]
    | false =>
      have hone := h.once id
      simpa [hs] using hone
  checked r' hr' id hs := by
    rw [hj] at hr'
    rcases List.mem_append.mp hr' with hr' | hr'
    · exact h.checked r' hr' id hs
    · cases List.mem_singleton.mp hr'
      exact (hchecked id hs).2

/-- Two accepted calls that settle a set are the same call. -/
theorem unique (h : Settled w) {r r' : ExecRecord H X Φ} {id : Nat} (hr : r ∈ w.journal)
    (hr' : r' ∈ w.journal) (hs : r.msg.fn.settles id = true)
    (hs' : r'.msg.fn.settles id = true) : r = r' := by
  have hm : r ∈ w.journal.filter fun r => r.msg.fn.settles id := List.mem_filter.mpr ⟨hr, hs⟩
  have hm' : r' ∈ w.journal.filter fun r => r.msg.fn.settles id :=
    List.mem_filter.mpr ⟨hr', hs'⟩
  have hone := h.once id
  generalize w.journal.filter (fun r => r.msg.fn.settles id) = l at hm hm' hone
  cases l with
  | nil => cases hm
  | cons x l =>
    obtain rfl : l = [] := by simpa using hone
    rw [List.mem_singleton.mp hm, List.mem_singleton.mp hm']

/-- A set has one mark at most. -/
theorem exclusive (h : Settled w) {id : Nat} {k k' : Mark}
    (hk : k.isSet (w.state.actionsSets id) = true)
    (hk' : k'.isSet (w.state.actionsSets id) = true) : k = k' := by
  obtain ⟨r, hr, hf⟩ := (h.marked id k).mp hk
  obtain ⟨r', hr', hf'⟩ := (h.marked id k').mp hk'
  obtain rfl := h.unique hr hr' (Mark.settles_eq_true.mpr ⟨k, hf⟩)
    (Mark.settles_eq_true.mpr ⟨k', hf'⟩)
  exact (Mark.fn_inj.mp (hf.symm.trans hf')).1

theorem getCurrentState_eq (h : Settled w) {now : UInt256} {id : Nat} {k : Mark} :
    getCurrentState now w.state id = .ok k.state ↔
      id < w.state.actionsSetCounter ∧ k.isSet (w.state.actionsSets id) = true :=
  Mark.getCurrentState_eq fun _ hk' hk => h.exclusive hk' hk

end Settled

section

variable [DecidableEq H] {K : Keccak H} {child : Child X Φ} {this : Address}

theorem Settled.keep {l : Option (Message Φ)} {ctx ctx' : List (ExecOpen H X Φ)}
    {w w' : ExecWorld H X Φ} (hm : Move K child this l ctx w ctx' w') (h : Settled w) :
    Settled w' := by
  rcases hm.marks with ⟨m, id, k, -, hf, hg, hq, hj, hset⟩ | ⟨hsame, hj | ⟨m, -, hf, hj⟩⟩
  · refine h.append hj ?_ ?_
    · intro id' k'
      rw [hset, hf, Mark.fn_inj]
      by_cases hid : id' = id
      · subst hid
        rw [Function.update_self, Mark.isSet_set]
        simp
      · rw [Function.update_of_ne hid]
        simp [Ne.symm hid]
    · intro id' hs
      obtain ⟨k', hk'⟩ := Mark.settles_eq_true.mp hs
      obtain ⟨-, rfl⟩ := Mark.fn_inj.mp (hf.symm.trans hk')
      exact ⟨(getCurrentState_eq_queued.mp hq).2.1, hq, hg⟩
  · refine ⟨?_, ?_, ?_⟩
    · intro id k; rw [hsame, hj]; exact h.marked id k
    · intro id; rw [hj]; exact h.once id
    · rw [hj]; exact h.checked
  · refine h.append hj ?_ ?_
    · intro id k
      have hne : m.fn ≠ k.fn id := by
        intro he
        have hs := Mark.settles_eq_true.mpr ⟨k, he⟩
        rw [hf id] at hs
        cases hs
      rw [hsame]
      simp [hne]
    · intro id hs
      rw [hf id] at hs
      cases hs

end

theorem Constructed.settled {t : UInt256} {s : State H X} (h : Constructed t s) :
    Settled (Φ := Φ) ⟨t, s, []⟩ where
  marked id k := by cases k <;> simp [Mark.isSet, h.empty.2.1 id]
  once id := by simp
  checked := by simp

section

variable [DecidableEq H] {K : Keccak H} {child : Child X Φ} {this : Address}

/-- **The marks are those of the committed history.** -/
theorem settled_of_reachable {c : ExecConfig H X Φ}
    (hc : Reachable (executor K child this) Constructed c) : Settled c.world :=
  (executor_refines K child this).invariant (I := fun _ w => Settled w) (fun h => h.settled)
    (fun hm _ h => h.keep hm) hc

/-! ## Steps -/

/-- The step that marks a set, whatever else may be undone. -/
theorem step_becomes_marked {c c' : ExecConfig H X Φ}
    {a : Act Address (Message Φ) (List UInt8) Error} {id : Nat} {k : Mark}
    (hc : Reachable (executor K child this) Constructed c)
    (hs : Step (executor K child this) c a c')
    (hbefore : k.isSet (c.world.state.actionsSets id) = false)
    (hafter : k.isSet (c'.world.state.actionsSets id) = true) :
    ∃ m, a = .call m ∧ m.fn = k.fn id ∧
      (m.fn = .cancel id → m.sender = c.world.state.guardian) ∧
      getCurrentState c.world.now c.world.state id = .ok .queued := by
  rcases step_cases hc hs with ⟨w, hlater, hquiet, -⟩ | ⟨m, ctx, w, rfl, hm, hquiet, -⟩
  · rw [hquiet.sets] at hafter
    rw [Mark.isSet_of_evolves hlater.evolves hafter] at hbefore
    cases hbefore
  · rw [hquiet.sets] at hafter
    obtain ⟨m', hm', hf, hg, hq⟩ := hm.becomes_marked hbefore hafter
    cases hm'
    exact ⟨m, rfl, hf, hg, hq⟩

/-- The step with which `getCurrentState` begins to report the mark. -/
theorem step_becomes_state {c c' : ExecConfig H X Φ}
    {a : Act Address (Message Φ) (List UInt8) Error} {id : Nat} (k : Mark)
    (hc : Reachable (executor K child this) Constructed c)
    (hs : Step (executor K child this) c a c')
    (hafter : getCurrentState c'.world.now c'.world.state id = .ok k.state)
    (hbefore : getCurrentState c.world.now c.world.state id ≠ .ok k.state) :
    ∃ m, a = .call m ∧ m.fn = k.fn id ∧
      (m.fn = .cancel id → m.sender = c.world.state.guardian) ∧
      getCurrentState c.world.now c.world.state id = .ok .queued := by
  have hsettled := settled_of_reachable hc
  have hset := ((settled_of_reachable (.step hc hs)).getCurrentState_eq.mp hafter).2
  refine step_becomes_marked hc hs (Bool.eq_false_iff.mpr fun hold => hbefore ?_) hset
  refine hsettled.getCurrentState_eq.mpr ⟨?_, hold⟩
  by_contra hid
  rw [(stored_of_reachable hc).free id (Nat.le_of_not_lt hid), Mark.not_isSet_of_live ⟨rfl, rfl⟩]
    at hold
  cases hold

/-- A mark that is there between two transactions is there for ever. -/
theorem marked_forever {c c' : ExecConfig H X Φ} {id : Nat} (k : Mark)
    (hc : Reachable (executor K child this) Constructed c) (hempty : c.stack = [])
    (hsteps : Steps (executor K child this) c c')
    (h : getCurrentState c.world.now c.world.state id = .ok k.state) :
    getCurrentState c'.world.now c'.world.state id = .ok k.state := by
  obtain ⟨hid, hset⟩ := (settled_of_reachable hc).getCurrentState_eq.mp h
  have hev := (later_of_steps hc hempty hsteps).evolves
  exact (settled_of_reachable (hsteps.reachable hc)).getCurrentState_eq.mpr
    ⟨Nat.lt_of_lt_of_le hid hev.counter, Mark.isSet_of_evolves hev hset⟩

/-- `execute` and `cancel` are accepted for a `Queued` set only, and touch no other slot. -/
theorem Move.settles {m : Message Φ} {ctx ctx' : List (ExecOpen H X Φ)} {w w' : ExecWorld H X Φ}
    {id : Nat} (h : Move K child this (some m) ctx w ctx' w') (hs : m.fn.settles id = true) :
    getCurrentState w.now w.state id = .ok .queued ∧
      w'.state.actionsSetCounter = w.state.actionsSetCounter ∧
      w'.state.gracePeriod = w.state.gracePeriod ∧
      ∀ id', id' ≠ id → w'.state.actionsSets id' = w.state.actionsSets id' := by
  cases h with
  | @write _ _ _ s hsnd hw =>
    obtain ⟨k, hf⟩ := Mark.settles_eq_true.mp hs
    rw [hf] at hw
    cases k with
    | executed => cases hw
    | canceled =>
      cases hw with
      | cancel hg hq => exact ⟨hq, rfl, rfl, fun id' hne => Function.update_of_ne hne _ _⟩
  | @begin _ _ _ id₀ a hf hq ht ha =>
    rw [hf] at hs
    obtain rfl : id₀ = id := by simpa [Fn.settles] using hs
    refine ⟨hq, by simp, by simp, fun id' hne => ?_⟩
    show (w.state.started K this m.toMsg id₀ a).actionsSets id' = _
    rw [started_actionsSets, Function.update_of_ne hne]
  | delegate hf _ _ =>
    rw [hf] at hs
    cases hs

/-- Only `updateGracePeriod` moves the grace period. -/
theorem Move.gracePeriod {l : Option (Message Φ)} {ctx ctx' : List (ExecOpen H X Φ)}
    {w w' : ExecWorld H X Φ} (h : Move K child this l ctx w ctx' w') :
    w'.state.gracePeriod = w.state.gracePeriod ∨ ∃ m, l = some m ∧
      m.fn = .updateGracePeriod w'.state.gracePeriod ∧
      w'.journal = w.journal ++ [⟨w.now, m, w.state⟩] := by
  cases h with
  | @write _ _ m s hs hw =>
    cases hf : m.fn with
    | updateGracePeriod gracePeriod =>
      rw [hf] at hw
      cases hw with
      | updateGracePeriod _ _ => exact Or.inr ⟨m, rfl, hf, rfl⟩
    | own f =>
      rw [hf] at hw
      cases hw <;> exact Or.inl rfl
    | receiveFunds =>
      rw [hf] at hw
      cases hw
      exact Or.inl (receive_gracePeriod ..)
    | _ =>
      rw [hf] at hw
      cases hw
      all_goals exact Or.inl rfl
  | begin _ _ _ _ => exact Or.inl (started_gracePeriod ..)
  | _ => exact Or.inl rfl

/-- Between two worlds of one history: unless somebody raised it, the grace period is not
longer. -/
def GraceBounded (w w' : ExecWorld H X Φ) : Prop :=
  ∃ rs, w'.journal = w.journal ++ rs ∧ ((∃ r ∈ rs, ∃ gracePeriod,
    r.msg.fn = .updateGracePeriod gracePeriod ∧ r.pre.gracePeriod < gracePeriod) ∨
      w'.state.gracePeriod ≤ w.state.gracePeriod)

theorem progress_graceBounded :
    Progress (Move K child this) Sound (GraceBounded (H := H) (X := X)) where
  refl _ := ⟨[], (List.append_nil _).symm, Or.inr (BitVec.le_refl _)⟩
  trans := by
    rintro w w' w'' ⟨rs, hj, h⟩ ⟨rs', hj', h'⟩
    refine ⟨rs ++ rs', by rw [hj', hj, List.append_assoc], ?_⟩
    rcases h with ⟨r, hr, hraise⟩ | hle
    · exact Or.inl ⟨r, List.mem_append_left _ hr, hraise⟩
    rcases h' with ⟨r, hr, hraise⟩ | hle'
    · exact Or.inl ⟨r, List.mem_append_right _ hr, hraise⟩
    · exact Or.inr (BitVec.le_trans hle' hle)
  move := by
    intro l ctx w ctx' w' hm _
    obtain ⟨rs, hj⟩ := hm.journal_prefix
    refine ⟨rs, hj.symm, ?_⟩
    rcases hm.gracePeriod with hsame | ⟨m, -, hf, hj'⟩
    · exact Or.inr (by rw [hsame]; exact BitVec.le_refl _)
    · by_cases hlt : w.state.gracePeriod < w'.state.gracePeriod
      · have hrs : rs = [⟨w.now, m, w.state⟩] := List.append_cancel_left (hj.trans hj')
        exact Or.inl ⟨_, by rw [hrs]; exact List.mem_singleton_self _, _, hf, hlt⟩
      · exact Or.inr (BitVec.not_lt.mp hlt)

/-! ## How a set goes on -/

/-- Nobody can settle a set while it is being executed. -/
theorem not_step_of_executing {c c' : ExecConfig H X Φ} {id : Nat} {m : Message Φ}
    (hc : Reachable (executor K child this) Constructed c)
    (ho : ∃ o ∈ opens c.stack, o.msg.fn = .execute id) (hm : m.fn.settles id = true) :
    ¬ Step (executor K child this) c (.call m) c' := by
  intro hs
  obtain ⟨o, ho, hf⟩ := ho
  rcases step_cases hc hs with ⟨w, -, -, -, -, hne, -⟩ | ⟨m', ctx, w, hcall, hmove, -⟩
  · exact hne m rfl
  · cases hcall
    have hq := (hmove.settles hm).1
    have hex := ((sound_of_reachable hc).executed ho hf).2
    rw [not_executed_of_queued hq] at hex
    cases hex

/-- The step that makes an expired set `Queued` again, if nothing is undone. -/
theorem step_expired_queued {c c' : ExecConfig H X Φ}
    {a : Act Address (Message Φ) (List UInt8) Error} {id : Nat}
    (hc : Reachable (executor K child this) Constructed c)
    (hs : Step (executor K child this) c a c') (ha : ¬ a.Undoes)
    (hexp : getCurrentState c.world.now c.world.state id = .ok .expired)
    (hq : getCurrentState c'.world.now c'.world.state id = .ok .queued) :
    ∃ m gracePeriod, a = .call m ∧ m.fn = .updateGracePeriod gracePeriod ∧
      c.world.state.gracePeriod < gracePeriod := by
  have hev := evolves_of_step hc hs ha
  rcases step_cases hc hs with ⟨w, -, hquiet, -, hnow, -, hfwd⟩ |
    ⟨m, ctx, w, rfl, hmove, hquiet, -, hnow⟩
  · rw [(hfwd ha).1] at hquiet hnow
    have hlt := gracePeriod_lt_of_expired_queued hev hnow hexp hq
    rw [hquiet.gracePeriod] at hlt
    exact absurd hlt (BitVec.lt_irrefl _)
  · have hle : c.world.now ≤ c'.world.now := by rw [hnow]; exact BitVec.le_refl _
    have hlt := gracePeriod_lt_of_expired_queued hev hle hexp hq
    rw [hquiet.gracePeriod] at hlt
    rcases hmove.gracePeriod with hsame | ⟨m', hm', hf, -⟩
    · rw [hsame] at hlt
      exact absurd hlt (BitVec.lt_irrefl _)
    · cases hm'
      exact ⟨m, _, rfl, hf, hlt⟩

/-- Between two transactions and any later moment somebody has raised the grace period. -/
theorem steps_expired_queued {c c' : ExecConfig H X Φ} {id : Nat}
    (hc : Reachable (executor K child this) Constructed c) (hempty : c.stack = [])
    (hsteps : Steps (executor K child this) c c')
    (hexp : getCurrentState c.world.now c.world.state id = .ok .expired)
    (hq : getCurrentState c'.world.now c'.world.state id = .ok .queued) :
    ∃ rs, c'.world.journal = c.world.journal ++ rs ∧ ∃ r ∈ rs, ∃ gracePeriod,
      r.msg.fn = .updateGracePeriod gracePeriod ∧ r.pre.gracePeriod < gracePeriod := by
  have hlater := later_of_steps hc hempty hsteps
  have hlt := gracePeriod_lt_of_expired_queued hlater.evolves hlater.now hexp hq
  obtain ⟨rs, hj, hraise | hle⟩ :=
    Steps.later (executor_refines K child this) progress_graceBounded hc hempty hsteps
  · exact ⟨rs, hj, hraise⟩
  · exact absurd hlt (BitVec.not_lt.mpr hle)

/-- Settling another set. -/
theorem step_settles_other {c c' : ExecConfig H X Φ} {id id' : Nat} {m : Message Φ}
    (hc : Reachable (executor K child this) Constructed c) (hm : m.fn.settles id' = true)
    (hne : id ≠ id') (hs : Step (executor K child this) c (.call m) c') :
    c'.world.state.actionsSets id = c.world.state.actionsSets id ∧
      getCurrentState c'.world.now c'.world.state id
        = getCurrentState c.world.now c.world.state id := by
  rcases step_cases hc hs with ⟨w, -, -, -, -, hnot, -⟩ |
    ⟨m', ctx, w, hcall, hmove, hquiet, -, hnow⟩
  · exact absurd rfl (hnot m)
  · cases hcall
    obtain ⟨-, hcounter, hgrace, hsets⟩ := hmove.settles hm
    have hslot : c'.world.state.actionsSets id = c.world.state.actionsSets id := by
      rw [hquiet.sets, hsets id hne]
    refine ⟨hslot, ?_⟩
    rw [hnow]
    exact getCurrentState_congr (by rw [hquiet.counter.trans hcounter])
      (hquiet.gracePeriod.trans hgrace) hslot

/-- Queueing a new set. -/
theorem step_queues_other {c c' : ExecConfig H X Φ} {id : Nat} {m : Message Φ} {a : Actions}
    (ha : queuedBy child this ⟨c.world.now, m, c.world.state⟩ = some a)
    (hid : id < c.world.state.actionsSetCounter)
    (hs : Step (executor K child this) c (.call m) c') :
    c'.world.state.actionsSets id = c.world.state.actionsSets id ∧
      getCurrentState c'.world.now c'.world.state id
        = getCurrentState c.world.now c.world.state id := by
  obtain ⟨-, rfl⟩ := step_of_queuedBy ha hs
  have hslot : (c.world.state.queued K a (c.world.now + c.world.state.delay)).actionsSets id
      = c.world.state.actionsSets id :=
    State.queued_actionsSets_of_ne (Nat.ne_of_lt hid) a _
  have hcounter : (c.world.state.queued K a
      (c.world.now + c.world.state.delay)).actionsSetCounter ≤ id ↔
        c.world.state.actionsSetCounter ≤ id := by
    rw [State.queued_actionsSetCounter]
    omega
  exact ⟨hslot, getCurrentState_congr hcounter rfl hslot⟩

/-- Going on with a good answer. -/
theorem step_resumes {c c' : ExecConfig H X Φ} {id : Nat} {d : List UInt8}
    (hc : Reachable (executor K child this) Constructed c)
    (hs : Step (executor K child this) c (.resume true d) c') :
    c'.world.state.actionsSets id = c.world.state.actionsSets id ∧
      getCurrentState c'.world.now c'.world.state id
        = getCurrentState c.world.now c.world.state id := by
  rcases step_cases hc hs with ⟨w, -, hquiet, -, -, -, hfwd⟩ | ⟨m, ctx, w, hcall, -⟩
  · obtain ⟨rfl, hnow⟩ := hfwd (fun h => nomatch h)
    have hopen : opens c.stack ≠ [] := by
      cases hs with
      | answerReturns _ => simp
      | answerSuspends _ => simp
    have hnow' : c'.world.now = c.world.now := by
      rcases hnow with hnow | hnow
      · exact hnow
      · exact absurd hnow hopen
    refine ⟨by rw [hquiet.sets], ?_⟩
    rw [hnow']
    exact getCurrentState_congr (by rw [hquiet.counter]) hquiet.gracePeriod (by rw [hquiet.sets])
  · cases hcall

/-! ## The life cycle -/

/-- How the set `id` goes on from the configuration `c`. -/
structure LifeCycle (K : Keccak H) (child : Child X Φ) (this : Address) (c : ExecConfig H X Φ)
    (id : Nat) : Prop where
  becomes_executed : ∀ a c', Step (executor K child this) c a c' →
    getCurrentState c'.world.now c'.world.state id = .ok .executed →
    getCurrentState c.world.now c.world.state id ≠ .ok .executed →
    ∃ m, a = .call m ∧ m.fn = .execute id ∧
      getCurrentState c.world.now c.world.state id = .ok .queued
  becomes_canceled : ∀ a c', Step (executor K child this) c a c' →
    getCurrentState c'.world.now c'.world.state id = .ok .canceled →
    getCurrentState c.world.now c.world.state id ≠ .ok .canceled →
    ∃ m, a = .call m ∧ m.fn = .cancel id ∧ m.sender = c.world.state.guardian ∧
      getCurrentState c.world.now c.world.state id = .ok .queued
  exclusive : ¬ ((c.world.state.actionsSets id).executed = true ∧
    (c.world.state.actionsSets id).canceled = true)
  /-- A mark goes away only with the frame that has set it, or one further out. -/
  kept : ∀ a c', Step (executor K child this) c a c' → ¬ a.Undoes →
    c.world.state.Evolves c'.world.state
  executed_forever : ∀ c', c.stack = [] → Steps (executor K child this) c c' →
    getCurrentState c.world.now c.world.state id = .ok .executed →
    getCurrentState c'.world.now c'.world.state id = .ok .executed
  canceled_forever : ∀ c', c.stack = [] → Steps (executor K child this) c c' →
    getCurrentState c.world.now c.world.state id = .ok .canceled →
    getCurrentState c'.world.now c'.world.state id = .ok .canceled
  /-- In the committed history one call at most executes or cancels the set. -/
  once : (c.world.journal.filter fun r => r.msg.fn.settles id).length ≤ 1
  /-- It was accepted for a `Queued` set, and from the guardian of its day if it cancels. -/
  checked : ∀ r ∈ c.world.journal, r.msg.fn.settles id = true →
    getCurrentState r.now r.pre id = .ok .queued ∧
      (r.msg.fn = .cancel id → r.msg.sender = r.pre.guardian)
  executed_iff : (c.world.state.actionsSets id).executed = true ↔
    ∃ r ∈ c.world.journal, r.msg.fn = .execute id
  canceled_iff : (c.world.state.actionsSets id).canceled = true ↔
    ∃ r ∈ c.world.journal, r.msg.fn = .cancel id
  /-- Whoever is called by a running `execute(id)` can neither execute nor cancel the set. -/
  reentrant : (∃ o ∈ opens c.stack, o.msg.fn = .execute id) → ∀ m c',
    m.fn = .execute id ∨ m.fn = .cancel id → ¬ Step (executor K child this) c (.call m) c'
  expired_queued : ∀ a c', Step (executor K child this) c a c' → ¬ a.Undoes →
    getCurrentState c.world.now c.world.state id = .ok .expired →
    getCurrentState c'.world.now c'.world.state id = .ok .queued →
    ∃ m gracePeriod, a = .call m ∧ m.fn = .updateGracePeriod gracePeriod ∧
      c.world.state.gracePeriod < gracePeriod
  expired_queued_later : ∀ c', c.stack = [] → Steps (executor K child this) c c' →
    getCurrentState c.world.now c.world.state id = .ok .expired →
    getCurrentState c'.world.now c'.world.state id = .ok .queued →
    ∃ rs, c'.world.journal = c.world.journal ++ rs ∧ ∃ r ∈ rs, ∃ gracePeriod,
      r.msg.fn = .updateGracePeriod gracePeriod ∧ r.pre.gracePeriod < gracePeriod
  /-- Executing or canceling another set changes nothing for this one. -/
  others : ∀ m id' c', m.fn = .execute id' ∨ m.fn = .cancel id' → id ≠ id' →
    Step (executor K child this) c (.call m) c' →
    c'.world.state.actionsSets id = c.world.state.actionsSets id ∧
    getCurrentState c'.world.now c'.world.state id
      = getCurrentState c.world.now c.world.state id
  /-- Nor does queueing a new one. -/
  others_queue : ∀ m a c', queuedBy child this ⟨c.world.now, m, c.world.state⟩ = some a →
    id < c.world.state.actionsSetCounter → Step (executor K child this) c (.call m) c' →
    c'.world.state.actionsSets id = c.world.state.actionsSets id ∧
    getCurrentState c'.world.now c'.world.state id
      = getCurrentState c.world.now c.world.state id
  /-- Nor does the answer with which a running `execute` goes on or ends. -/
  others_resume : ∀ d c', Step (executor K child this) c (.resume true d) c' →
    c'.world.state.actionsSets id = c.world.state.actionsSets id ∧
    getCurrentState c'.world.now c'.world.state id
      = getCurrentState c.world.now c.world.state id

/-- **The life cycle of a set, at any moment of any run.** -/
theorem lifecycle {c : ExecConfig H X Φ}
    (hc : Reachable (executor K child this) Constructed c) (id : Nat) :
    LifeCycle K child this c id := by
  have hsettled := settled_of_reachable hc
  have hsettles : ∀ {m : Message Φ} {id : Nat}, m.fn = .execute id ∨ m.fn = .cancel id →
      m.fn.settles id = true := by
    rintro m id (hf | hf)
    · exact Mark.settles_eq_true.mpr ⟨.executed, hf⟩
    · exact Mark.settles_eq_true.mpr ⟨.canceled, hf⟩
  exact {
    becomes_executed := fun a c' hs hafter hbefore => by
      obtain ⟨m, ha, hf, -, hq⟩ := step_becomes_state .executed hc hs hafter hbefore
      exact ⟨m, ha, hf, hq⟩
    becomes_canceled := fun a c' hs hafter hbefore => by
      obtain ⟨m, ha, hf, hg, hq⟩ := step_becomes_state .canceled hc hs hafter hbefore
      exact ⟨m, ha, hf, hg hf, hq⟩
    exclusive := fun ⟨hex, hcan⟩ => by
      have he : Mark.executed = Mark.canceled := hsettled.exclusive hex hcan
      cases he
    kept := fun a c' hs ha => evolves_of_step hc hs ha
    executed_forever := fun c' hempty hsteps => marked_forever .executed hc hempty hsteps
    canceled_forever := fun c' hempty hsteps => marked_forever .canceled hc hempty hsteps
    once := hsettled.once id
    checked := fun r hr => hsettled.checked r hr id
    executed_iff := hsettled.marked id .executed
    canceled_iff := hsettled.marked id .canceled
    reentrant := fun ho m c' hm => not_step_of_executing hc ho (hsettles hm)
    expired_queued := fun a c' hs ha => step_expired_queued hc hs ha
    expired_queued_later := fun c' hempty hsteps => steps_expired_queued hc hempty hsteps
    others := fun m id' c' hm hne => step_settles_other hc (hsettles hm) hne
    others_queue := fun m a c' ha hid => step_queues_other ha hid
    others_resume := fun d c' => step_resumes hc }

/-- The target called by the example run can neither execute the set again nor cancel it. -/
theorem lifecycle_running :
    (∀ m c', m.fn = .execute 0 ∨ m.fn = .cancel 0 → ¬ Step
      (executor Example.keccak Example.child Example.this) Example.running (.call m) c') ∧
    (Example.running.world.state.actionsSets 0).executed = true :=
  let h := lifecycle Example.reachable_running 0
  ⟨h.reentrant ⟨_, List.mem_cons_self, rfl⟩, h.executed_iff.mpr
    ⟨⟨1100, Example.executeMessage, Example.matured.state⟩,
      List.mem_append_right _ (List.mem_singleton_self _), rfl⟩⟩

end

end BridgeExecutor

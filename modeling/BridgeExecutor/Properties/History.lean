import BridgeExecutor.Properties.Config
import BridgeExecutor.Properties.Executing

/-!
# The store and the journal

The journal lists the accepted calls that no revert has undone.  The calls among them that
queued a set are the `creations`, and the store holds exactly these: the set with the id `k` is
what the `k`-th of them asked for.

* `stored_of_reachable` — the store is the list of creations
* `later_of_steps` — what is stored between two transactions is not altered afterwards
* `store_representation` — both together, and that no index is ever out of range
-/

namespace BridgeExecutor

open Reentrant BridgeExecutorBase

abbrev ExecRecord (H X Φ : Type) := Record UInt256 (Message Φ) (State H X)

variable {H X Φ : Type}

/-! ## Creations -/

/-- The actions that an accepted message has queued. -/
def queuedBy (child : Child X Φ) (this : Address) (r : ExecRecord H X Φ) : Option Actions :=
  match r.msg.fn with
  | .own f =>
    match child.handle this r.msg.toMsg r.pre.own f with
    | .ok (.queue actions) => some actions
    | _ => none
  | _ => none

/-- A successful `_queue`: the call that led to it and the actions queued. -/
structure Creation (H X Φ : Type) where
  record : ExecRecord H X Φ
  actions : Actions

/-- The timestamp of the `_queue` plus the delay in force at that moment. -/
def Creation.executionTime (q : Creation H X Φ) : UInt256 := q.record.now + q.record.pre.delay

/-- The successful `_queue` calls, oldest first. -/
def creations (child : Child X Φ) (this : Address) (journal : List (ExecRecord H X Φ)) :
    List (Creation H X Φ) :=
  journal.filterMap fun r => (queuedBy child this r).map (⟨r, ·⟩)

section

variable {child : Child X Φ} {this : Address}

@[simp] theorem creations_nil : creations child this ([] : List (ExecRecord H X Φ)) = [] := rfl

theorem creations_append_of_none {j : List (ExecRecord H X Φ)} {r : ExecRecord H X Φ}
    (h : queuedBy child this r = none) :
    creations child this (j ++ [r]) = creations child this j := by
  simp [creations, h]

theorem creations_append_of_some {j : List (ExecRecord H X Φ)} {r : ExecRecord H X Φ}
    {a : Actions} (h : queuedBy child this r = some a) :
    creations child this (j ++ [r]) = creations child this j ++ [⟨r, a⟩] := by
  simp [creations, h]

theorem creations_prefix {j j' : List (ExecRecord H X Φ)} (h : j <+: j') :
    creations child this j <+: creations child this j' :=
  h.filterMap _

/-- A creation comes from a call whose origin the inheriting contract has accepted. -/
theorem handle_of_mem_creations {j : List (ExecRecord H X Φ)} {q : Creation H X Φ}
    (h : q ∈ creations child this j) : q.record ∈ j ∧ ∃ f, q.record.msg.fn = .own f ∧
      child.handle this q.record.msg.toMsg q.record.pre.own f = .ok (.queue q.actions) := by
  obtain ⟨r, hr, hq⟩ := List.mem_filterMap.mp h
  obtain ⟨a, ha, rfl⟩ := Option.map_eq_some_iff.mp hq
  refine ⟨hr, ?_⟩
  unfold queuedBy at ha
  split at ha
  · next f hf =>
    split at ha
    · next b hb =>
      cases ha
      exact ⟨f, hf, hb⟩
    · cases ha
  · cases ha

/-! ## Moves that queue nothing -/

/-- The slots have the same arrays and times, and the free ones are untouched. -/
structure State.SameSets (s s' : State H X) : Prop where
  counter : s'.actionsSetCounter = s.actionsSetCounter
  actions : ∀ id, (s'.actionsSets id).toActions = (s.actionsSets id).toActions
  executionTime : ∀ id, (s'.actionsSets id).executionTime = (s.actionsSets id).executionTime
  free : ∀ id, s.actionsSetCounter ≤ id → s'.actionsSets id = s.actionsSets id

theorem State.SameSets.of_eq {s s' : State H X}
    (hc : s'.actionsSetCounter = s.actionsSetCounter) (hs : s'.actionsSets = s.actionsSets) :
    s.SameSets s' := by
  refine ⟨hc, ?_, ?_, ?_⟩ <;> intro id <;> rw [hs]
  intro _
  rfl

/-- One stored slot is marked. -/
theorem State.SameSets.of_update {s s' : State H X} {k : Nat} {a : ActionsSet}
    (hk : k < s.actionsSetCounter) (hc : s'.actionsSetCounter = s.actionsSetCounter)
    (hs : s'.actionsSets = Function.update s.actionsSets k a)
    (ha : a.toActions = (s.actionsSets k).toActions)
    (ht : a.executionTime = (s.actionsSets k).executionTime) : s.SameSets s' := by
  refine ⟨hc, ?_, ?_, ?_⟩ <;> intro id <;> rw [hs] <;> by_cases hid : id = k
  · subst hid; rw [Function.update_self]; exact ha
  · rw [Function.update_of_ne hid]
  · subst hid; rw [Function.update_self]; exact ht
  · rw [Function.update_of_ne hid]
  · subst hid; intro hle; omega
  · rw [Function.update_of_ne hid]; exact fun _ => rfl

/-! ## The invariant -/

/-- What `_queue` has checked, and the parameters it was called under. -/
structure Creation.Valid (q : Creation H X Φ) (now : UInt256) : Prop where
  wellFormed : q.actions.WellFormed
  no_overflow : q.record.now.toNat + q.record.pre.delay.toNat < 2 ^ 256
  config : q.record.pre.ValidConfig
  le_now : q.record.now ≤ now

/-- The store is the list of creations. -/
structure Stored (child : Child X Φ) (this : Address) (w : ExecWorld H X Φ) : Prop where
  counter : w.state.actionsSetCounter = (creations child this w.journal).length
  sets : ∀ k q, (creations child this w.journal)[k]? = some q →
    (w.state.actionsSets k).toActions = q.actions ∧
      (w.state.actionsSets k).executionTime = q.executionTime
  free : ∀ id, w.state.actionsSetCounter ≤ id → w.state.actionsSets id = {}
  valid : ∀ q ∈ creations child this w.journal, q.Valid w.now

namespace Stored

variable {w w' : ExecWorld H X Φ}

/-- The creation behind a stored set. -/
theorem creation (h : Stored child this w) {id : Nat} (hid : id < w.state.actionsSetCounter) :
    ∃ q, (creations child this w.journal)[id]? = some q ∧ q ∈ creations child this w.journal ∧
      (w.state.actionsSets id).toActions = q.actions ∧
      (w.state.actionsSets id).executionTime = q.executionTime := by
  have hlt : id < (creations child this w.journal).length := by
    rw [← h.counter]
    exact hid
  have hq := List.getElem?_eq_getElem hlt
  exact ⟨_, hq, List.getElem_mem hlt, h.sets id _ hq⟩

theorem of_sameSets (h : Stored child this w) (hs : w.state.SameSets w'.state)
    (hc : creations child this w'.journal = creations child this w.journal)
    (hn : w.now ≤ w'.now) : Stored child this w' where
  counter := by rw [hs.counter, hc]; exact h.counter
  sets k q hq := by
    rw [hc] at hq
    rw [hs.actions, hs.executionTime]
    exact h.sets k q hq
  free id hid := by
    rw [hs.counter] at hid
    rw [hs.free id hid]
    exact h.free id hid
  valid q hq := by
    rw [hc] at hq
    have hv := h.valid q hq
    exact ⟨hv.wellFormed, hv.no_overflow, hv.config, BitVec.le_trans hv.le_now hn⟩

end Stored

theorem Constructed.stored {t : UInt256} {s : State H X} (h : Constructed t s) :
    Stored child this ⟨t, s, []⟩ where
  counter := h.empty.1
  sets k q hq := by simp at hq
  free id _ := h.empty.2.1 id
  valid := by simp

/-! ## Moves -/

section

variable [DecidableEq H] {K : Keccak H}

theorem State.cancel_sameSets {s : State H X} {id : Nat} (h : id < s.actionsSetCounter) :
    s.SameSets (s.cancel K id) := .of_update h rfl rfl rfl rfl

theorem State.started_sameSets {s : State H X} {msg : Msg} {id : Nat} {a : Action}
    (h : id < s.actionsSetCounter) : s.SameSets (s.started K this msg id a) :=
  .of_update h (started_actionsSetCounter ..) (started_actionsSets ..) rfl rfl

/-- What the functions without outgoing calls do to the store. -/
theorem Writes.queues_or_keeps {w : ExecWorld H X Φ} {m : Message Φ} {s : State H X}
    (h : Writes K child this w.now m.toMsg w.state m.fn s) :
    (∃ a, queuedBy child this ⟨w.now, m, w.state⟩ = some a ∧ a.WellFormed ∧
      w.now.toNat + w.state.delay.toNat < 2 ^ 256 ∧
      s = w.state.queued K a (w.now + w.state.delay)) ∨
    (queuedBy child this ⟨w.now, m, w.state⟩ = none ∧ w.state.SameSets s) := by
  unfold queuedBy
  dsimp only
  generalize m.fn = f at h
  cases h with
  | cancel hg hq =>
    exact Or.inr ⟨rfl, State.cancel_sameSets (getCurrentState_eq_queued.mp hq).1⟩
  | queue hh hwf hsum hnd hfree =>
    refine Or.inl ⟨_, ?_, hwf, hsum, rfl⟩
    simp only [hh]
  | write hh =>
    refine Or.inr ⟨?_, .of_eq rfl rfl⟩
    simp only [hh]
  | receiveFunds => exact Or.inr ⟨rfl, .of_eq (by simp) (by simp)⟩
  | _ => exact Or.inr ⟨rfl, .of_eq rfl rfl⟩

/-- **What a move does to the store and to the list of creations.** -/
theorem Move.queues_or_keeps {l : Option (Message Φ)} {ctx ctx' : List (ExecOpen H X Φ)}
    {w w' : ExecWorld H X Φ} (h : Move K child this l ctx w ctx' w') :
    (∃ m a, l = some m ∧ ctx' = ctx ∧ queuedBy child this ⟨w.now, m, w.state⟩ = some a ∧
      a.WellFormed ∧ w.now.toNat + w.state.delay.toNat < 2 ^ 256 ∧
      w' = (w.record m).withState (w.state.queued K a (w.now + w.state.delay))) ∨
    (w.state.SameSets w'.state ∧
      creations child this w'.journal = creations child this w.journal) := by
  cases h with
  | @write _ _ m s hs hw =>
    rcases hw.queues_or_keeps with ⟨a, ha, hwf, hsum, rfl⟩ | ⟨hnone, hsame⟩
    · exact Or.inl ⟨m, a, rfl, rfl, ha, hwf, hsum, rfl⟩
    · exact Or.inr ⟨hsame, creations_append_of_none hnone⟩
  | @begin _ _ m id a hf hq ht ha =>
    exact Or.inr ⟨State.started_sameSets (getCurrentState_eq_queued.mp hq).1,
      creations_append_of_none (by simp [queuedBy, hf])⟩
  | @delegate _ _ m target data hf hs hne =>
    exact Or.inr ⟨.of_eq rfl rfl, creations_append_of_none (by simp [queuedBy, hf])⟩
  | _ => exact Or.inr ⟨.of_eq rfl rfl, rfl⟩

namespace Stored

variable {w w' : ExecWorld H X Φ}

/-- `_queue` writes the slot behind the last one. -/
theorem queued (h : Stored child this w) (hcfg : w.state.ValidConfig) {m : Message Φ}
    {a : Actions} (ha : queuedBy child this ⟨w.now, m, w.state⟩ = some a) (hwf : a.WellFormed)
    (hsum : w.now.toNat + w.state.delay.toNat < 2 ^ 256) :
    Stored child this
      ((w.record m).withState (w.state.queued K a (w.now + w.state.delay))) := by
  have hcre : creations child this (w.record m).journal = creations child this w.journal
      ++ [⟨⟨w.now, m, w.state⟩, a⟩] := creations_append_of_some ha
  refine ⟨?_, ?_, ?_, ?_⟩
  · show w.state.actionsSetCounter + 1 = (creations child this (w.record m).journal).length
    rw [hcre, h.counter, List.length_append]
    rfl
  · intro k q hq
    rw [World.withState_journal, hcre] at hq
    rw [World.withState_state]
    by_cases hk : k = w.state.actionsSetCounter
    · have hlen : (creations child this w.journal).length ≤ k :=
        Nat.le_of_eq (by rw [hk, h.counter])
      rw [List.getElem?_append_right hlen, hk, h.counter, Nat.sub_self] at hq
      cases hq
      rw [hk, State.queued_actionsSets_self (h.free _ (Nat.le_refl _))]
      exact ⟨rfl, rfl⟩
    · have hlt : k < (creations child this w.journal).length := by
        have := (List.getElem?_eq_some_iff.mp hq).1
        rw [List.length_append, List.length_singleton, ← h.counter] at this
        rw [← h.counter]
        omega
      rw [List.getElem?_append_left hlt] at hq
      rw [State.queued_actionsSets_of_ne hk]
      exact h.sets k q hq
  · intro id hid
    have hid' : w.state.actionsSetCounter + 1 ≤ id := hid
    rw [World.withState_state, State.queued_actionsSets_of_ne (by omega)]
    exact h.free id (by omega)
  · intro q hq
    rw [World.withState_journal, hcre] at hq
    rcases List.mem_append.mp hq with hq | hq
    · exact h.valid q hq
    · cases List.mem_singleton.mp hq
      exact ⟨hwf, hsum, hcfg, BitVec.le_refl _⟩

end Stored

/-- Time does not run backwards. -/
theorem Move.now_le {l : Option (Message Φ)} {ctx ctx' : List (ExecOpen H X Φ)}
    {w w' : ExecWorld H X Φ} (h : Move K child this l ctx w ctx' w') : w.now ≤ w'.now := by
  cases h with
  | advance ht => exact ht
  | _ => exact BitVec.le_refl _

theorem Stored.keep {l : Option (Message Φ)} {ctx ctx' : List (ExecOpen H X Φ)}
    {w w' : ExecWorld H X Φ} (hm : Move K child this l ctx w ctx' w')
    (hcfg : w.state.ValidConfig) (h : Stored child this w) : Stored child this w' := by
  rcases hm.queues_or_keeps with ⟨m, a, -, -, ha, hwf, hsum, rfl⟩ | ⟨hsame, hcre⟩
  · exact h.queued hcfg ha hwf hsum
  · exact h.of_sameSets hsame hcre hm.now_le

/-- The executor may rely on valid parameters and a faithful store as well. -/
theorem executor_refines_stored (K : Keccak H) (child : Child X Φ) (this : Address) :
    Refines (executor K child this) Constructed (Move K child this)
      fun ctx w => Sound ctx w ∧ w.state.ValidConfig ∧ Stored child this w :=
  (executor_refines K child this).and (fun h => ⟨h.validConfig, h.stored⟩)
    fun hm _ hw => ⟨hm.validConfig hw.1, hw.2.keep hm hw.1⟩

/-- **In every reachable configuration the store is the list of creations.** -/
theorem stored_of_reachable {c : ExecConfig H X Φ}
    (hc : Reachable (executor K child this) Constructed c) : Stored child this c.world :=
  ((executor_refines_stored K child this).reachable hc).2.2.2

/-! ## Later worlds -/

/-- `w'` continues the history of `w`. -/
structure Later (w w' : ExecWorld H X Φ) : Prop where
  journal : w.journal <+: w'.journal
  evolves : w.state.Evolves w'.state
  now : w.now ≤ w'.now

theorem Move.journal_prefix {l : Option (Message Φ)} {ctx ctx' : List (ExecOpen H X Φ)}
    {w w' : ExecWorld H X Φ} (h : Move K child this l ctx w ctx' w') :
    w.journal <+: w'.journal := by
  cases h with
  | write _ _ => exact List.prefix_append _ _
  | begin _ _ _ _ => exact List.prefix_append _ _
  | delegate _ _ _ => exact List.prefix_append _ _
  | _ => exact List.prefix_rfl

theorem progress_later : Progress (Move K child this) Sound (Later (H := H) (X := X)) where
  refl _ := ⟨List.prefix_rfl, .refl _, BitVec.le_refl _⟩
  trans h h' := ⟨h.journal.trans h'.journal, h.evolves.trans h'.evolves,
    BitVec.le_trans h.now h'.now⟩
  move hm _ := ⟨hm.journal_prefix, hm.evolves, hm.now_le⟩

/-- **What is there between two transactions is built on for ever after.** -/
theorem later_of_steps {c c' : ExecConfig H X Φ}
    (hc : Reachable (executor K child this) Constructed c) (hempty : c.stack = [])
    (h : Steps (executor K child this) c c') : Later c.world c'.world :=
  Steps.later (executor_refines K child this) progress_later hc hempty h

/-! ## Steps as moves -/

/-- A move that accepts a message takes no time. -/
theorem Move.now_of_some {m : Message Φ} {ctx ctx' : List (ExecOpen H X Φ)}
    {w w' : ExecWorld H X Φ} (h : Move K child this (some m) ctx w ctx' w') : w'.now = w.now := by
  cases h <;> rfl

/--
**A step either changes nothing of interest, or accepts a message by one move.**

In the first case it may take the world back to an earlier one, `w`.
-/
theorem step_cases {c c' : ExecConfig H X Φ} {a : Act Address (Message Φ) (List UInt8) Error}
    (hc : Reachable (executor K child this) Constructed c)
    (hs : Step (executor K child this) c a c') :
    (∃ w, Later w c.world ∧ w.state.Quiet c'.world.state ∧ c'.world.journal = w.journal ∧
      w.now ≤ c'.world.now ∧ (∀ m, a ≠ .call m) ∧ (¬ a.Undoes → w = c.world ∧
        (c'.world.now = c.world.now ∨ opens c.stack = []))) ∨
    (∃ m ctx w, a = .call m ∧ Move K child this (some m) (opens c.stack) c.world ctx w ∧
      w.state.Quiet c'.world.state ∧ c'.world.journal = w.journal ∧
      c'.world.now = c.world.now) := by
  obtain ⟨ctx, w, -, hlater, hfwd, hforward⟩ :=
    (executor_refines K child this).forward progress_later hc hs
  have hcall : a.accepted = none → ∀ m, a ≠ .call m := by
    rintro hnone m rfl
    cases hnone
  obtain ⟨w', st'⟩ := c'
  generalize hl : a.accepted = l at hforward
  generalize opens st' = ctx' at hforward
  cases hforward with
  | same =>
    refine Or.inl ⟨_, hlater, ⟨rfl, rfl, rfl, rfl, rfl, rfl, rfl, rfl⟩, rfl, BitVec.le_refl _,
      hcall hl, fun ha => ?_⟩
    obtain ⟨-, hw⟩ := hfwd ha
    exact ⟨hw, Or.inl (by rw [← hw])⟩
  | one hm =>
    cases l with
    | none =>
      obtain ⟨hquiet, hj, hnow⟩ := hm.quiet
      refine Or.inl ⟨_, hlater, hquiet, hj, hm.now_le, hcall hl, fun ha => ?_⟩
      obtain ⟨hctx, hw⟩ := hfwd ha
      refine ⟨hw, ?_⟩
      rcases hnow with hnow | hnow
      · exact Or.inl (by rw [hnow, hw])
      · exact Or.inr (hctx.symm.trans hnow)
    | some m =>
      obtain rfl := Act.accepted_eq_some hl
      obtain ⟨rfl, rfl⟩ := hfwd id
      exact Or.inr ⟨m, _, _, rfl, hm, ⟨rfl, rfl, rfl, rfl, rfl, rfl, rfl, rfl⟩, rfl,
        hm.now_of_some⟩
  | @two _ _ _ _ v s hm hm₂ =>
    obtain ⟨hquiet₂, hj₂, -⟩ := hm₂.quiet
    cases l with
    | none =>
      obtain ⟨hquiet, hj, hnow⟩ := hm.quiet
      refine Or.inl ⟨_, hlater, hquiet.trans hquiet₂, hj₂.trans hj, hm.now_le, hcall hl,
        fun ha => ?_⟩
      obtain ⟨hctx, hw⟩ := hfwd ha
      refine ⟨hw, ?_⟩
      rcases hnow with hnow | hnow
      · exact Or.inl (by rw [← hw]; exact hnow)
      · exact Or.inr (hctx.symm.trans hnow)
    | some m =>
      obtain rfl := Act.accepted_eq_some hl
      obtain ⟨rfl, rfl⟩ := hfwd id
      exact Or.inr ⟨m, _, _, rfl, hm, hquiet₂, hj₂, hm.now_of_some⟩

/-- Nothing stored is altered by moving on. -/
theorem evolves_of_step {c c' : ExecConfig H X Φ} {a : Act Address (Message Φ) (List UInt8) Error}
    (hc : Reachable (executor K child this) Constructed c)
    (hs : Step (executor K child this) c a c') (ha : ¬ a.Undoes) :
    c.world.state.Evolves c'.world.state := by
  rcases step_cases hc hs with ⟨w, -, hquiet, -, -, -, hfwd⟩ | ⟨m, ctx, w, -, hm, hquiet, -, -⟩
  · rw [← (hfwd ha).1]
    exact .of_eq hquiet.counter hquiet.sets
  · exact hm.evolves.trans (.of_eq hquiet.counter hquiet.sets)

/-! ## The steps that queue -/

/-- A message that the inheriting contract lets through to `_queue`. -/
theorem external_of_queuedBy {now : UInt256} {m : Message Φ} {s : State H X} {a : Actions}
    (ha : queuedBy child this ⟨now, m, s⟩ = some a) :
    external K child this now m s = .ofExcept (nonPayable m.toMsg (queue K now a s)) := by
  unfold queuedBy at ha
  split at ha
  · next f hf =>
    split at ha
    · next b hb =>
      cases ha
      have hplain : plain K child this now m.toMsg s m.fn
          = some (nonPayable m.toMsg (own K child this now m.toMsg f s)) := by
        rw [hf]
        rfl
      rw [external_plain hplain, own, hb]
    · cases ha
  · cases ha

/-- **The step that queues a set**, with what it has checked. -/
theorem step_of_queuedBy {c c' : ExecConfig H X Φ} {m : Message Φ} {a : Actions}
    (ha : queuedBy child this ⟨c.world.now, m, c.world.state⟩ = some a)
    (h : Step (executor K child this) c (.call m) c') :
    queue K c.world.now a c.world.state = .ok c'.world.state ∧
      c' = ⟨(c.world.record m).withState
        (c.world.state.queued K a (c.world.now + c.world.state.delay)), c.stack⟩ := by
  have hext := external_of_queuedBy (K := K) ha
  cases hnp : nonPayable m.toMsg (queue K c.world.now a c.world.state) with
  | error e =>
    rw [hnp] at hext
    exact absurd h (Step.not_call hext)
  | ok s =>
    rw [hnp] at hext
    have hok := (nonPayable_eq_ok.mp hnp).2
    obtain ⟨-, -, -, -, hs⟩ := queue_eq_ok.mp hok
    cases h with
    | callReturns _ he =>
      cases hext.symm.trans he
      exact ⟨hok, by rw [hs]⟩
    | callSuspends _ he => exact nomatch hext.symm.trans he

/-- Neither `execute` nor `cancel` ends with an index out of range. -/
theorem not_completes_panicIndex {c c' : ExecConfig H X Φ}
    (hc : Reachable (executor K child this) Constructed c) {w : ExecWorld H X Φ} {m : Message Φ}
    {tr : List (Exchange OutCall (List UInt8))}
    (h : Completes (executor K child this) c w m tr (.error .panicIndex) c') (id : Nat) :
    m.fn ≠ .execute id ∧ m.fn ≠ .cancel id := by
  obtain ⟨hst, hsound⟩ := (executor_refines K child this).reachable hc
  cases h with
  | @reverts w st _ _ hm he =>
    have he' : external K child this w.now m w.state = .fail .panicIndex := he
    constructor
    · exact fun hf => execute_ne_panicIndex hsound hf he'
    · intro hf
      rw [external_plain (r := nonPayable m.toMsg
        (BridgeExecutorBase.cancel K w.now m.sender id w.state)) (by rw [hf]; rfl)] at he'
      unfold nonPayable at he'
      split at he'
      · cases he'
      · cases hcan : BridgeExecutorBase.cancel K w.now m.sender id w.state with
        | error e =>
          rw [hcan] at he'
          cases he'
          exact cancel_ne_panicIndex hsound hcan
        | ok s => rw [hcan] at he'; cases he'
  | @answerReverts w f st ok d _ he =>
    have hev : f.before.state.Evolves (f.resumed w ok).state :=
      (hst.resumed hsound ok).evolves _ List.mem_cons_self
    constructor
    · intro hf
      exact execute_answer_ne_panicIndex
        (dispatching_of_reachable hc f List.mem_cons_self id hf) hev ok d he
    · intro hf
      rcases waiting_of_reachable hc f List.mem_cons_self with ⟨_, hf'⟩ | ⟨_, _, hf'⟩
      · exact nomatch hf.symm.trans hf'
      · exact nomatch hf.symm.trans hf'

/-! ## The store -/

/--
**The store represents the successful `_queue` calls, none lost and none altered.**

A creation counts from the moment it is accepted, and no longer if a revert undoes it.
-/
theorem store_representation {c : ExecConfig H X Φ}
    (hc : Reachable (executor K child this) Constructed c) :
    c.world.state.actionsSetCounter = (creations child this c.world.journal).length ∧
    (∀ k q, (creations child this c.world.journal)[k]? = some q →
      q.actions.WellFormed ∧
      (getActionsSetById c.world.state k).toActions = q.actions ∧
      (getActionsSetById c.world.state k).executionTime = q.executionTime ∧
      (c.stack = [] → ∀ c', Steps (executor K child this) c c' →
        (creations child this c'.world.journal)[k]? = some q ∧
        (getActionsSetById c'.world.state k).toActions = q.actions ∧
        (getActionsSetById c'.world.state k).executionTime = q.executionTime)) ∧
    (∀ id, c.world.state.actionsSetCounter ≤ id →
      getActionsSetById c.world.state id = {}) ∧
    (∀ w m tr c', Completes (executor K child this) c w m tr (.error .panicIndex) c' →
      ∀ id, m.fn ≠ .execute id ∧ m.fn ≠ .cancel id) ∧
    (∀ m a c', queuedBy child this ⟨c.world.now, m, c.world.state⟩ = some a →
      Step (executor K child this) c (.call m) c' →
      getActionsSetById c'.world.state c.world.state.actionsSetCounter
        = ⟨a, c.world.now + c.world.state.delay, false, false⟩) := by
  have hst := stored_of_reachable hc
  refine ⟨hst.counter, ?_, hst.free, fun w m tr c' h => not_completes_panicIndex hc h, ?_⟩
  · intro k q hq
    obtain ⟨hact, htime⟩ := hst.sets k q hq
    have hmem : q ∈ creations child this c.world.journal := List.mem_of_getElem? hq
    refine ⟨(hst.valid q hmem).wellFormed, hact, htime, fun hempty c' hsteps => ?_⟩
    have hlater := later_of_steps hc hempty hsteps
    have hq' : (creations child this c'.world.journal)[k]? = some q := by
      obtain ⟨t, ht⟩ := creations_prefix hlater.journal
      rw [← ht, List.getElem?_append_left (List.getElem?_eq_some_iff.mp hq).1]
      exact hq
    exact ⟨hq', (stored_of_reachable (hsteps.reachable hc)).sets k q hq'⟩
  · intro m a c' ha hstep
    obtain ⟨-, rfl⟩ := step_of_queuedBy ha hstep
    exact State.queued_actionsSets_self (hst.free _ (Nat.le_refl _)) a _

/-- After the example run the set is stored under the id 0. -/
theorem store_representation_running :
    (getActionsSetById Example.running.world.state 0).toActions = Example.actions ∧
      (getActionsSetById Example.running.world.state 0).executionTime = 1100 :=
  let h := store_representation Example.reachable_running
  ⟨(h.2.1 0 _ rfl).2.1, (h.2.1 0 _ rfl).2.2.1⟩

end

end

end BridgeExecutor

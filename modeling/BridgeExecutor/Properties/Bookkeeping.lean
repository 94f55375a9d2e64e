import BridgeExecutor.Properties.History

/-!
# The hash flags

`_queuedActions` is written by three loops: `_queue` sets flags, `cancel` clears them all, and
`execute` clears them one by one with foreign code running in between.

The flags belong to the **active** actions.  An action of a set that is neither executed nor
canceled is active, and so is one of a set that is being executed if its turn has not come.
With no frame open only the first kind is left.

* `booked_of_reachable` — the flags are those of the active actions, no two of them share one
* `queuedActions_iff` — the same between two transactions
* `queue_iff` — exactly when `_queue` succeeds
-/

namespace BridgeExecutor

open Reentrant BridgeExecutorBase

variable {H X Φ : Type}

/-! ## Active actions -/

/-- The key of the action with the index `p.2` of the set `p.1`. -/
def State.actionKey (K : Keccak H) (s : State H X) (p : Nat × Nat) : Option H :=
  ((s.actionsSets p.1).action? p.2).map
    (K.actionHash · (s.actionsSets p.1).executionTime)

/-- The action is queued, or its turn in a running `execute` has not come. -/
def Active (ctx : List (ExecOpen H X Φ)) (s : State H X) (p : Nat × Nat) : Prop :=
  p.1 < s.actionsSetCounter ∧ ((s.actionsSets p.1).Live ∨
    ∃ o ∈ ctx, o.msg.fn = .execute p.1 ∧ o.answered < p.2)

/-- The flags are those of the active actions. -/
def Booked (K : Keccak H) (ctx : List (ExecOpen H X Φ)) (s : State H X) : Prop :=
  Flags.Records (s.actionKey K) (Active ctx s) s.queuedActions

theorem actionKey_of_sameSets {K : Keccak H} {s s' : State H X} (h : s.SameSets s') :
    s'.actionKey K = s.actionKey K := by
  funext p
  rw [State.actionKey, State.actionKey, h.actions, h.executionTime]

section

variable {ctx : List (ExecOpen H X Φ)} {s s' : State H X} {o : ExecOpen H X Φ}

theorem active_nil {p : Nat × Nat} : Active ([] : List (ExecOpen H X Φ)) s p ↔
    p.1 < s.actionsSetCounter ∧ (s.actionsSets p.1).Live := by
  simp [Active]

/-- A slot with the same marks. -/
theorem active_congr {p : Nat × Nat} (hc : s'.actionsSetCounter = s.actionsSetCounter)
    (hs : (s'.actionsSets p.1).Live ↔ (s.actionsSets p.1).Live) :
    Active ctx s' p ↔ Active ctx s p := by
  rw [Active, Active, hc, hs]

/-- A frame that executes something else. -/
theorem active_cons_of_ne {p : Nat × Nat} (hne : o.msg.fn ≠ .execute p.1) :
    Active (o :: ctx) s p ↔ Active ctx s p := by
  simp [Active, hne]

/-- A set that is marked and not being executed has no active action. -/
theorem not_active {p : Nat × Nat} (hex : ¬ (s.actionsSets p.1).Live)
    (hctx : ∀ o ∈ ctx, o.msg.fn ≠ .execute p.1) : ¬ Active ctx s p := by
  rintro ⟨-, hlive | ⟨o, ho, hf, -⟩⟩
  · exact hex hlive
  · exact hctx o ho hf

/-- The actions of the set that the innermost frame executes. -/
theorem active_cons_self {p : Nat × Nat} (hid : p.1 < s.actionsSetCounter)
    (hex : ¬ (s.actionsSets p.1).Live) (hf : o.msg.fn = .execute p.1)
    (hctx : ∀ o' ∈ ctx, o'.msg.fn ≠ .execute p.1) :
    Active (o :: ctx) s p ↔ o.answered < p.2 := by
  constructor
  · rintro ⟨-, hlive | ⟨o', ho', hf', hlt⟩⟩
    · exact absurd hlive hex
    · rcases List.mem_cons.mp ho' with rfl | ho'
      · exact hlt
      · exact absurd hf' (hctx o' ho')
  · intro hlt
    exact ⟨hid, Or.inr ⟨o, List.mem_cons_self, hf, hlt⟩⟩

end

/-- No other frame executes the same set. -/
theorem Sound.others {ctx : List (ExecOpen H X Φ)} {o : ExecOpen H X Φ} {w : ExecWorld H X Φ}
    (h : Sound (o :: ctx) w) {id : Nat} (hf : o.msg.fn = .execute id) :
    ∀ o' ∈ ctx, o'.msg.fn ≠ .execute id := fun o' ho' =>
  (List.pairwise_cons.mp h.distinct).1 o' ho' id hf

/-- A set that is not marked is not being executed. -/
theorem Sound.not_executing {ctx : List (ExecOpen H X Φ)} {w : ExecWorld H X Φ}
    (h : Sound ctx w) {id : Nat} (hlive : (w.state.actionsSets id).Live) :
    ∀ o ∈ ctx, o.msg.fn ≠ .execute id := by
  intro o ho hf
  have hex := (h.executed ho hf).2
  rw [hlive.1] at hex
  cases hex

/-! ## The hashes of one set -/

section

variable {K : Keccak H}

theorem mem_hashes {a : Actions} {t : UInt256} {h : H} :
    h ∈ K.hashes a t ↔ ∃ i x, a.action? i = some x ∧ K.actionHash x t = h := by
  simp only [Keccak.hashes, List.mem_map, Actions.mem_toList]
  constructor
  · rintro ⟨x, ⟨i, hi⟩, hx⟩
    exact ⟨i, x, hi, hx⟩
  · rintro ⟨i, x, hi, hx⟩
    exact ⟨x, ⟨i, hi⟩, hx⟩

/-- The keys of the actions of a set are its hashes. -/
theorem mem_hashes_iff_actionKey {s : State H X} {id : Nat} {h : H} :
    h ∈ K.hashes (s.actionsSets id).toActions (s.actionsSets id).executionTime ↔
      ∃ p : Nat × Nat, p.1 = id ∧ s.actionKey K p = some h := by
  rw [mem_hashes]
  constructor
  · rintro ⟨i, x, hi, hx⟩
    exact ⟨(id, i), rfl, Option.map_eq_some_iff.mpr ⟨x, hi, hx⟩⟩
  · rintro ⟨⟨_, i⟩, rfl, hp⟩
    obtain ⟨x, hi, hx⟩ := Option.map_eq_some_iff.mp hp
    exact ⟨i, x, hi, hx⟩

/-- Different indices have different hashes, if there is no duplicate. -/
theorem index_inj_of_nodup_hashes {a : Actions} (hwf : a.WellFormed) {t : UInt256}
    (hnd : (K.hashes a t).Nodup) {i j : Nat} {h : H}
    (hi : (a.action? i).map (K.actionHash · t) = some h)
    (hj : (a.action? j).map (K.actionHash · t) = some h) : i = j := by
  have hget : ∀ n, (K.hashes a t)[n]? = (a.action? n).map (K.actionHash · t) := by
    intro n
    rw [Keccak.hashes, List.getElem?_map, hwf.getElem?_toList]
  have hi' := (hget i).trans hi
  have hj' := (hget j).trans hj
  have hlt : i < (K.hashes a t).length := (List.getElem?_eq_some_iff.mp hi').1
  exact (List.getElem?_inj hlt hnd).mp (hi'.trans hj'.symm)

end

/-! ## The three loops -/

section

variable {K : Keccak H} {ctx : List (ExecOpen H X Φ)} {w : ExecWorld H X Φ}

/-- A frame of `execute` that ends has cleared all its flags. -/
theorem Booked.finish {o : ExecOpen H X Φ} (h : Booked K (o :: ctx) w.state)
    (hs : Sound (o :: ctx) w) {id : Nat} (hf : o.msg.fn = .execute id)
    (hn : o.answered + 1 = (w.state.actionsSets id).targets.length) :
    Booked K ctx w.state := by
  obtain ⟨hid, hex⟩ := hs.executed List.mem_cons_self hf
  have hdead : ¬ (w.state.actionsSets id).Live := by
    intro hlive
    rw [hlive.1] at hex
    cases hex
  refine Flags.Records.congr h ?_
  rintro ⟨id', i⟩ x hx
  by_cases hp : id' = id
  · subst hp
    obtain ⟨y, hy, -⟩ := Option.map_eq_some_iff.mp hx
    have hlt : i < (w.state.actionsSets id').targets.length := Actions.lt_of_action? hy
    rw [active_cons_self hid hdead hf (hs.others hf)]
    exact ⟨fun hact => absurd hact (not_active hdead (hs.others hf)), fun hact => by omega⟩
  · have hne : o.msg.fn ≠ .execute id' := fun he => hp (by rw [hf] at he; cases he; rfl)
    rw [active_cons_of_ne hne]

variable [DecidableEq H] {this : Address}

/-- `_queue` sets the flags of a new set, all of whose actions become active. -/
theorem Booked.queued (h : Booked K ctx w.state) {a : Actions} {t : UInt256}
    (hfree : w.state.actionsSets w.state.actionsSetCounter = {}) (hwf : a.WellFormed)
    (hnd : (K.hashes a t).Nodup) (hnone : ∀ x ∈ K.hashes a t, w.state.queuedActions x = false) :
    Booked K ctx (w.state.queued K a t) := by
  have hcounter := State.queued_actionsSetCounter (K := K) w.state a t
  have hold : ∀ id, id ≠ w.state.actionsSetCounter →
      (w.state.queued K a t).actionsSets id = w.state.actionsSets id :=
    fun _ hid => State.queued_actionsSets_of_ne hid a t
  have hslot := State.queued_actionsSets_self (K := K) hfree a t
  have hkey : ∀ p : Nat × Nat, p.1 = w.state.actionsSetCounter →
      (w.state.queued K a t).actionKey K p = (a.action? p.2).map (K.actionHash · t) := by
    intro p hp
    rw [State.actionKey, hp, hslot]
  refine Flags.Records.add h (fun p => p.1 = w.state.actionsSetCounter) (K.hashes a t)
    ?_ ?_ ?_ ?_ hnone
  · intro p hp
    have hne : p.1 ≠ w.state.actionsSetCounter := by
      have := hp.1
      omega
    rw [State.actionKey, hold p.1 hne]
    rfl
  · intro p
    by_cases hp : p.1 = w.state.actionsSetCounter
    · refine ⟨fun _ => Or.inr hp, fun _ => ⟨by omega, Or.inl ?_⟩⟩
      rw [hp, hslot]
      exact ⟨rfl, rfl⟩
    · rw [Active, Active, hold p.1 hp, hcounter]
      constructor
      · rintro ⟨hlt, hact⟩
        exact Or.inl ⟨by omega, hact⟩
      · rintro (⟨hlt, hact⟩ | hp')
        · exact ⟨by omega, hact⟩
        · exact absurd hp' hp
  · intro x
    rw [mem_hashes]
    constructor
    · rintro ⟨i, y, hi, hy⟩
      refine ⟨(w.state.actionsSetCounter, i), rfl, ?_⟩
      rw [hkey _ rfl]
      exact Option.map_eq_some_iff.mpr ⟨y, hi, hy⟩
    · rintro ⟨p, hp, hx⟩
      rw [hkey p hp] at hx
      obtain ⟨y, hi, hy⟩ := Option.map_eq_some_iff.mp hx
      exact ⟨p.2, y, hi, hy⟩
  · intro p p' x hp hp' hx hx'
    rw [hkey p hp] at hx
    rw [hkey p' hp'] at hx'
    have hidx := index_inj_of_nodup_hashes hwf hnd hx hx'
    exact Prod.ext (hp.trans hp'.symm) hidx

/-- `cancel` clears the flags of a set, none of whose actions stays active. -/
theorem Booked.cancel (h : Booked K ctx w.state) (hs : Sound ctx w) {id : Nat}
    (hid : id < w.state.actionsSetCounter) (hlive : (w.state.actionsSets id).Live) :
    Booked K ctx (w.state.cancel K id) := by
  have hsame : w.state.SameSets (w.state.cancel K id) := State.cancel_sameSets hid
  rw [Booked, actionKey_of_sameSets hsame]
  refine h.remove (fun p => p.1 = id) ?_ ?_ ?_
  · rintro p rfl
    exact ⟨hid, Or.inl hlive⟩
  · intro p x _
    by_cases hp : p.1 = id
    · have hdead : ¬ ((w.state.cancel K id).actionsSets p.1).Live := by
        rw [hp]
        show ¬ (Function.update w.state.actionsSets id _ id).Live
        rw [Function.update_self]
        exact fun hl => nomatch hl.2
      have hnot : ¬ Active ctx (w.state.cancel K id) p :=
        not_active hdead (by rw [hp]; exact hs.not_executing hlive)
      exact ⟨fun hact => absurd hact hnot, fun hact => absurd hp hact.2⟩
    · have hslot : (w.state.cancel K id).actionsSets p.1 = w.state.actionsSets p.1 :=
        Function.update_of_ne hp _ _
      rw [active_congr hsame.counter (by rw [hslot])]
      exact ⟨fun hact => ⟨hact, hp⟩, fun hact => hact.1⟩
  · intro x
    show Flags.release _ w.state.queuedActions x = true ↔ _
    rw [Flags.release_eq_true, mem_hashes_iff_actionKey]

/-- `execute` marks the set and clears the flag of its first action. -/
theorem Booked.started (h : Booked K ctx w.state) (hs : Sound ctx w) {m : Message Φ} {id : Nat}
    {a : Action} (hf : m.fn = .execute id) (hid : id < w.state.actionsSetCounter)
    (hlive : (w.state.actionsSets id).Live) (ha : (w.state.actionsSets id).action? 0 = some a)
    (w₀ : ExecWorld H X Φ) :
    Booked K (⟨m, 0, w₀⟩ :: ctx) (w.state.started K this m.toMsg id a) := by
  have hsame : w.state.SameSets (w.state.started K this m.toMsg id a) :=
    State.started_sameSets hid
  have hkey : w.state.actionKey K (id, 0)
      = some (K.actionHash a (w.state.actionsSets id).executionTime) :=
    Option.map_eq_some_iff.mpr ⟨a, ha, rfl⟩
  rw [Booked, actionKey_of_sameSets hsame, started_queuedActions]
  refine h.removeOne (j := (id, 0)) ⟨hid, Or.inl hlive⟩ hkey ?_
  rintro ⟨id', i⟩ x _
  by_cases hp : id' = id
  · subst hp
    have hdead : ¬ ((w.state.started K this m.toMsg id' a).actionsSets id').Live := by
      rw [started_actionsSets, Function.update_self]
      exact fun hl => nomatch hl.1
    rw [active_cons_self (by rw [hsame.counter]; exact hid) hdead hf
      (hs.not_executing hlive)]
    constructor
    · intro hlt
      exact ⟨⟨hid, Or.inl hlive⟩, fun he => by cases he; exact Nat.lt_irrefl 0 hlt⟩
    · rintro ⟨-, hne⟩
      exact Nat.pos_of_ne_zero fun hi => hne (congrArg _ hi)
  · have hne : m.fn ≠ .execute id' := fun he => hp (by rw [hf] at he; cases he; rfl)
    have hslot : (w.state.started K this m.toMsg id a).actionsSets id'
        = w.state.actionsSets id' := by
      rw [started_actionsSets, Function.update_of_ne hp]
    rw [active_cons_of_ne hne, active_congr hsame.counter (by rw [hslot])]
    exact ⟨fun hact => ⟨hact, fun he => hp (Prod.mk.inj he).1⟩, fun hact => hact.1⟩

/-- The running `execute` clears the flag of the action whose turn has come. -/
theorem Booked.next {o : ExecOpen H X Φ} (h : Booked K (o :: ctx) w.state)
    (hs : Sound (o :: ctx) w) {id : Nat} {a : Action} (hf : o.msg.fn = .execute id)
    (ha : (w.state.actionsSets id).action? (o.answered + 1) = some a) (w₀ : ExecWorld H X Φ) :
    Booked K (⟨o.msg, o.answered + 1, w₀⟩ :: ctx)
      (w.state.cleared K a (w.state.actionsSets id).executionTime) := by
  obtain ⟨hid, hex⟩ := hs.executed List.mem_cons_self hf
  have hdead : ¬ (w.state.actionsSets id).Live := by
    intro hlive
    rw [hlive.1] at hex
    cases hex
  have hkey : w.state.actionKey K (id, o.answered + 1)
      = some (K.actionHash a (w.state.actionsSets id).executionTime) :=
    Option.map_eq_some_iff.mpr ⟨a, ha, rfl⟩
  have hact : Active (o :: ctx) w.state (id, o.answered + 1) :=
    (active_cons_self hid hdead hf (hs.others hf)).mpr (Nat.lt_succ_self _)
  refine Flags.Records.removeOne h hact hkey ?_
  rintro ⟨id', i⟩ x _
  show Active _ w.state _ ↔ _
  by_cases hp : id' = id
  · subst hp
    rw [active_cons_self hid hdead hf (hs.others hf),
      active_cons_self hid hdead hf (hs.others hf)]
    constructor
    · intro hlt
      refine ⟨Nat.lt_of_succ_lt hlt, fun he => ?_⟩
      cases he
      exact Nat.lt_irrefl _ hlt
    · rintro ⟨hlt, hne⟩
      have hi : i ≠ o.answered + 1 := fun hi => hne (by rw [hi])
      show o.answered + 1 < i
      omega
  · have hne : o.msg.fn ≠ .execute id' := fun he => hp (by rw [hf] at he; cases he; rfl)
    rw [active_cons_of_ne hne, active_cons_of_ne hne]
    exact ⟨fun hact => ⟨hact, fun he => hp (Prod.mk.inj he).1⟩, fun hact => hact.1⟩

end

/-! ## The invariant -/

theorem Constructed.booked {K : Keccak H} {t : UInt256} {s : State H X} (h : Constructed t s) :
    Booked (Φ := Φ) K [] s where
  flag x := by
    rw [h.empty.2.2]
    constructor
    · nofun
    · rintro ⟨p, ⟨hp, -⟩, -⟩
      rw [h.empty.1] at hp
      exact absurd hp (Nat.not_lt_zero _)
  unique hi _ _ _ := by
    have hlt := hi.1
    rw [h.empty.1] at hlt
    exact absurd hlt (Nat.not_lt_zero _)

theorem nodup_hashes_iff {K : Keccak H} (hK : K.CollisionFree) {a : Actions} {t : UInt256} :
    (K.hashes a t).Nodup ↔ a.toList.Nodup :=
  List.nodup_map_iff fun x y h => (hK x t y t h).1

/-- A flag that is set stands for an action of a live set. -/
theorem queuedActions_eq_true {K : Keccak H} (hK : K.CollisionFree) {s : State H X}
    (h : Booked (Φ := Φ) K [] s) {x : Action} {t : UInt256} :
    s.queuedActions (K.actionHash x t) = true ↔ ∃ id, id < s.actionsSetCounter ∧
      (s.actionsSets id).Live ∧ (s.actionsSets id).executionTime = t ∧
      x ∈ (s.actionsSets id).toList := by
  rw [h.flag]
  constructor
  · rintro ⟨⟨id, i⟩, hact, hkey⟩
    obtain ⟨hid, hlive⟩ := active_nil.mp hact
    obtain ⟨y, hy, hhash⟩ := Option.map_eq_some_iff.mp hkey
    obtain ⟨rfl, ht⟩ := hK _ _ _ _ hhash
    exact ⟨id, hid, hlive, ht, Actions.mem_toList.mpr ⟨i, hy⟩⟩
  · rintro ⟨id, hid, hlive, rfl, hx⟩
    obtain ⟨i, hi⟩ := Actions.mem_toList.mp hx
    exact ⟨(id, i), active_nil.mpr ⟨hid, hlive⟩, Option.map_eq_some_iff.mpr ⟨x, hi, rfl⟩⟩

section

variable [DecidableEq H] {K : Keccak H} {child : Child X Φ} {this : Address}

theorem Booked.write {ctx : List (ExecOpen H X Φ)} {w : ExecWorld H X Φ} {m : Message Φ}
    {s : State H X} (h : Booked K ctx w.state) (hs : Sound ctx w) (hst : Stored child this w)
    (hw : Writes K child this w.now m.toMsg w.state m.fn s) : Booked K ctx s := by
  generalize m.fn = f at hw
  cases hw with
  | cancel hg hq =>
    obtain ⟨hid, hlive, -, -⟩ := getCurrentState_eq_queued.mp hq
    exact h.cancel hs hid hlive
  | queue hh hwf hsum hnd hnone => exact h.queued (hst.free _ (Nat.le_refl _)) hwf hnd hnone
  | receiveFunds =>
    obtain ⟨b, hb⟩ := receive_eq_setBalance w.state this m.toMsg
    rw [hb]
    exact h
  | _ => exact h

theorem Booked.keep {l : Option (Message Φ)} {ctx ctx' : List (ExecOpen H X Φ)}
    {w w' : ExecWorld H X Φ} (hm : Move K child this l ctx w ctx' w') (hs : Sound ctx w)
    (hst : Stored child this w) (h : Booked K ctx w.state) : Booked K ctx' w'.state := by
  cases hm with
  | write _ hw => exact h.write hs hst hw
  | begin hf hq ht ha =>
    obtain ⟨hid, hlive, -, -⟩ := getCurrentState_eq_queued.mp hq
    exact h.started hs hf hid hlive ha _
  | delegate hf _ _ =>
    exact Flags.Records.congr h fun p _ _ => active_cons_of_ne (by rw [hf]; nofun)
  | next hf ha => exact h.next hs hf ha _
  | finish hf hn => exact h.finish hs hf hn
  | finishDelegate hf =>
    exact Flags.Records.congr h fun p _ _ => (active_cons_of_ne (by rw [hf]; nofun)).symm
  | balance => exact h
  | log => exact h
  | advance _ => exact h

/-- **The flags are those of the active actions, inside running frames as well.** -/
theorem booked_of_reachable {c : ExecConfig H X Φ}
    (hc : Reachable (executor K child this) Constructed c) :
    Booked K (opens c.stack) c.world.state :=
  (executor_refines_stored K child this).invariant (I := fun ctx w => Booked K ctx w.state)
    (fun h => h.booked) (fun hm hJ h => h.keep hm hJ.1 hJ.2.2) hc

/--
**The hash bookkeeping between two transactions.**

A flag is set exactly if it is the hash of an action of a set that is neither executed nor
canceled, and no two such actions have the same hash.
-/
theorem queuedActions_iff {c : ExecConfig H X Φ}
    (hc : Reachable (executor K child this) Constructed c) (hopen : opens c.stack = []) :
    (∀ h, isActionQueued c.world.state h = true ↔
      ∃ id i, id < c.world.state.actionsSetCounter ∧
        i < (c.world.state.actionsSets id).targets.length ∧ (c.world.state.actionsSets id).Live ∧
        c.world.state.actionKey K (id, i) = some h) ∧
    (∀ h id i id' i', id < c.world.state.actionsSetCounter →
      id' < c.world.state.actionsSetCounter → (c.world.state.actionsSets id).Live →
      (c.world.state.actionsSets id').Live → c.world.state.actionKey K (id, i) = some h →
      c.world.state.actionKey K (id', i') = some h → id = id' ∧ i = i') := by
  have hb := booked_of_reachable hc
  rw [hopen] at hb
  constructor
  · intro h
    rw [isActionQueued, hb.flag]
    constructor
    · rintro ⟨⟨id, i⟩, hact, hkey⟩
      obtain ⟨hid, hlive⟩ := active_nil.mp hact
      obtain ⟨x, hx, -⟩ := Option.map_eq_some_iff.mp hkey
      exact ⟨id, i, hid, Actions.lt_of_action? hx, hlive, hkey⟩
    · rintro ⟨id, i, hid, -, hlive, hkey⟩
      exact ⟨(id, i), active_nil.mpr ⟨hid, hlive⟩, hkey⟩
  · intro h id i id' i' hid hid' hlive hlive' hkey hkey'
    have he := hb.unique (active_nil.mpr ⟨hid, hlive⟩) (active_nil.mpr ⟨hid', hlive'⟩) hkey hkey'
    exact Prod.mk.inj he

/-- After the queue of the example run exactly the flag of its action is set. -/
theorem queuedActions_iff_queued :
    isActionQueued Example.queued.world.state
      (Example.keccak.actionHash Example.action 1100) = true :=
  ((queuedActions_iff Example.reachable_queued rfl).1 _).mpr
    ⟨0, 0, by decide, by decide, ⟨rfl, rfl⟩, rfl⟩

/-! ## When `_queue` succeeds -/

/-- What `_queue` asks of its arguments and of the store. -/
structure Queueable (s : State H X) (now : UInt256) (a : Actions) : Prop where
  wellFormed : a.WellFormed
  no_overflow : now.toNat + s.delay.toNat < 2 ^ 256
  nodup : a.toList.Nodup
  unclaimed : ∀ id, id < s.actionsSetCounter → (s.actionsSets id).Live →
    (s.actionsSets id).executionTime = now + s.delay →
    ∀ x ∈ a.toList, x ∉ (s.actionsSets id).toList

/-- With no frame open `_queue` succeeds exactly on what is `Queueable`. -/
theorem queue_ok_iff (hK : K.CollisionFree) {s : State H X} (h : Booked (Φ := Φ) K [] s)
    {now : UInt256} {a : Actions} :
    (∃ s', queue K now a s = .ok s') ↔ Queueable s now a := by
  constructor
  · rintro ⟨s', hq⟩
    obtain ⟨hwf, hsum, hnd, hnone, -⟩ := queue_eq_ok.mp hq
    refine ⟨hwf, hsum, (nodup_hashes_iff hK).mp hnd, ?_⟩
    intro id hid hlive ht x hx hmem
    have hset := (queuedActions_eq_true hK h).mpr ⟨id, hid, hlive, ht, hmem⟩
    rw [hnone _ (List.mem_map.mpr ⟨x, hx, rfl⟩)] at hset
    cases hset
  · intro hq
    refine ⟨_, queue_eq_ok.mpr ⟨hq.wellFormed, hq.no_overflow, (nodup_hashes_iff hK).mpr hq.nodup,
      ?_, rfl⟩⟩
    intro y hy
    obtain ⟨x, hx, rfl⟩ := List.mem_map.mp hy
    refine Bool.eq_false_iff.mpr fun hset => ?_
    obtain ⟨id, hid, hlive, ht, hmem⟩ := (queuedActions_eq_true hK h).mp hset
    exact hq.unclaimed id hid hlive ht x hx hmem

/-- Two timestamps that lead to the same time under the same delay are equal. -/
theorem eq_of_add_delay_eq {x y d : UInt256} (hx : x.toNat + d.toNat < 2 ^ 256)
    (hy : y.toNat + d.toNat < 2 ^ 256) (h : x + d = y + d) : x = y := by
  have hnat := congrArg BitVec.toNat h
  rw [toNat_add_of_lt hx, toNat_add_of_lt hy] at hnat
  exact BitVec.eq_of_toNat_eq (by omega)

/--
**Exactly when `_queue` succeeds**, with no frame of `execute` open.

A duplicate is reported for the arguments themselves or for a live set that is not expired; under
an unchanged delay that set was queued at the same timestamp.
-/
theorem queue_iff (hK : K.CollisionFree) {c : ExecConfig H X Φ}
    (hc : Reachable (executor K child this) Constructed c) (hopen : opens c.stack = [])
    (now : UInt256) (a : Actions) :
    ((∃ s', queue K now a c.world.state = .ok s') ↔ Queueable c.world.state now a) ∧
    (∀ m, queuedBy child this ⟨c.world.now, m, c.world.state⟩ = some a →
      ¬ Queueable c.world.state c.world.now a →
      (∀ c', ¬ Step (executor K child this) c (.call m) c') ∧
      ((executor K child this).MayCall c.stack m.sender →
        ∃ e, Step (executor K child this) c (.reject m e) c)) ∧
    (queue K now a c.world.state = .error .duplicateAction → a.toList.Nodup →
      ∃ id q, (creations child this c.world.journal)[id]? = some q ∧
        (c.world.state.actionsSets id).Live ∧
        getCurrentState now c.world.state id ≠ .ok .expired ∧
        q.executionTime = now + c.world.state.delay ∧
        (∃ x ∈ a.toList, x ∈ q.actions.toList) ∧
        (q.record.pre.delay = c.world.state.delay → q.record.now = now)) := by
  have hb := booked_of_reachable hc
  rw [hopen] at hb
  have hst := stored_of_reachable hc
  refine ⟨queue_ok_iff hK hb, ?_, ?_⟩
  · intro m hm hnot
    have hext := external_of_queuedBy (K := K) hm
    refine ⟨fun c' hstep => ?_, fun hmay => ?_⟩
    · exact hnot ((queue_ok_iff hK hb).mp ⟨_, (step_of_queuedBy hm hstep).1⟩)
    · cases hnp : nonPayable m.toMsg (queue K c.world.now a c.world.state) with
      | error e =>
        rw [hnp] at hext
        exact ⟨e, .callReverts hmay hext⟩
      | ok s =>
        exact absurd ((queue_ok_iff hK hb).mp ⟨s, (nonPayable_eq_ok.mp hnp).2⟩) hnot
  · intro hdup hnodup
    obtain ⟨-, hsum, hflag⟩ := queue_eq_duplicateAction hdup
    obtain ⟨y, hy, hset⟩ := hflag ((nodup_hashes_iff hK).mpr hnodup)
    obtain ⟨x, hx, rfl⟩ := List.mem_map.mp hy
    obtain ⟨id, hid, hlive, ht, hmem⟩ := (queuedActions_eq_true hK hb).mp hset
    obtain ⟨q, hq, hmemq, hact, htime⟩ := hst.creation hid
    have hexec := htime.symm.trans ht
    refine ⟨id, q, hq, hlive, ?_, hexec, ⟨x, hx, by rw [← hact]; exact hmem⟩, ?_⟩
    · intro hexp
      obtain ⟨-, -, -, hpast⟩ := getCurrentState_eq_expired.mp hexp
      rw [ht, toNat_add_of_lt hsum] at hpast
      omega
    · intro hdelay
      have hover := (hst.valid q hmemq).no_overflow
      rw [Creation.executionTime, hdelay] at hexec
      rw [hdelay] at hover
      exact eq_of_add_delay_eq hover hsum hexec

/-- In the example run the same action can be queued again one second later. -/
theorem queue_iff_queued :
    ∃ s', queue Example.keccak 1001 Example.actions Example.queued.world.state = .ok s' := by
  have hK : Example.keccak.CollisionFree := Keccak.collisionFree_of_injective fun _ _ h => h
  refine ((queue_iff hK Example.reachable_queued rfl 1001 Example.actions).1).mpr
    ⟨Example.wellFormed_actions, by decide, List.nodup_singleton _, ?_⟩
  intro id hid _ ht
  have hzero : id = 0 := Nat.lt_one_iff.mp hid
  subst hzero
  exact absurd ht (by decide)

end

end BridgeExecutor

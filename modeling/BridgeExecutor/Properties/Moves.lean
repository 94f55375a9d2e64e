import BridgeExecutor.Properties.Specs

/-!
# The moves of the executor

`Move` is the abstract timelock: everything the executor can do between two outgoing calls.
`executor_refines` connects it to the code, so the properties of whole histories are proved
about moves only.

`Sound` is what every waiting frame relies on, and what every move keeps: stored sets do not
change, their arrays fit together, a set being executed is marked, and no set is being executed
twice.
-/

namespace BridgeExecutor

open Reentrant BridgeExecutorBase

abbrev ExecWorld (H X Φ : Type) := World UInt256 (Message Φ) (State H X)
abbrev ExecOpen (H X Φ : Type) := Open UInt256 (Message Φ) (State H X)
abbrev ExecConfig (H X Φ : Type) :=
  Config Address UInt256 (Message Φ) (State H X) OutCall (List UInt8) Error

variable {H X Φ : Type}

/-! ## Stored sets -/

/-- Sets stay as they are, except that they may become executed or canceled. -/
structure State.Evolves (s s' : State H X) : Prop where
  counter : s.actionsSetCounter ≤ s'.actionsSetCounter
  actions : ∀ id, id < s.actionsSetCounter →
    (s'.actionsSets id).toActions = (s.actionsSets id).toActions
  executionTime : ∀ id, id < s.actionsSetCounter →
    (s'.actionsSets id).executionTime = (s.actionsSets id).executionTime
  executed : ∀ id, (s.actionsSets id).executed = true → (s'.actionsSets id).executed = true
  canceled : ∀ id, (s.actionsSets id).canceled = true → (s'.actionsSets id).canceled = true

namespace State.Evolves

theorem refl (s : State H X) : s.Evolves s :=
  ⟨Nat.le_refl _, fun _ _ => rfl, fun _ _ => rfl, fun _ h => h, fun _ h => h⟩

theorem trans {s s' s'' : State H X} (h : s.Evolves s') (h' : s'.Evolves s'') :
    s.Evolves s'' where
  counter := Nat.le_trans h.counter h'.counter
  actions id hid := by
    rw [h'.actions id (Nat.lt_of_lt_of_le hid h.counter), h.actions id hid]
  executionTime id hid := by
    rw [h'.executionTime id (Nat.lt_of_lt_of_le hid h.counter), h.executionTime id hid]
  executed id he := h'.executed id (h.executed id he)
  canceled id hc := h'.canceled id (h.canceled id hc)

/-- A write to something else. -/
theorem of_eq {s s' : State H X} (hc : s'.actionsSetCounter = s.actionsSetCounter)
    (hs : s'.actionsSets = s.actionsSets) : s.Evolves s' := by
  refine ⟨Nat.le_of_eq hc.symm, ?_, ?_, ?_, ?_⟩ <;> intro id h <;> rw [hs]
  · exact h
  · exact h

/-- A write to one slot that keeps the arrays and the time of a stored set. -/
theorem of_update {s s' : State H X} {k : Nat} {a : ActionsSet}
    (hc : s.actionsSetCounter ≤ s'.actionsSetCounter)
    (hs : s'.actionsSets = Function.update s.actionsSets k a)
    (ha : k < s.actionsSetCounter → a.toActions = (s.actionsSets k).toActions ∧
      a.executionTime = (s.actionsSets k).executionTime)
    (he : (s.actionsSets k).executed = true → a.executed = true)
    (hcan : (s.actionsSets k).canceled = true → a.canceled = true) : s.Evolves s' := by
  refine ⟨hc, ?_, ?_, ?_, ?_⟩ <;> intro id hid <;> rw [hs] <;> by_cases hk : id = k
  · subst hk; rw [Function.update_self]; exact (ha hid).1
  · rw [Function.update_of_ne hk]
  · subst hk; rw [Function.update_self]; exact (ha hid).2
  · rw [Function.update_of_ne hk]
  · subst hk; rw [Function.update_self]; exact he hid
  · rw [Function.update_of_ne hk]; exact hid
  · subst hk; rw [Function.update_self]; exact hcan hid
  · rw [Function.update_of_ne hk]; exact hid

end State.Evolves

@[simp] theorem receive_actionsSetCounter (s : State H X) (this : Address) (msg : Msg) :
    (s.receive this msg).actionsSetCounter = s.actionsSetCounter := by
  unfold State.receive; split <;> rfl

@[simp] theorem receive_actionsSets (s : State H X) (this : Address) (msg : Msg) :
    (s.receive this msg).actionsSets = s.actionsSets := by
  unfold State.receive; split <;> rfl

@[simp] theorem receive_queuedActions (s : State H X) (this : Address) (msg : Msg) :
    (s.receive this msg).queuedActions = s.queuedActions := by
  unfold State.receive; split <;> rfl

@[simp] theorem receive_gracePeriod (s : State H X) (this : Address) (msg : Msg) :
    (s.receive this msg).gracePeriod = s.gracePeriod := by
  unfold State.receive; split <;> rfl

/-- Receiving ether changes nothing but the balance. -/
theorem receive_eq_setBalance (s : State H X) (this : Address) (msg : Msg) :
    ∃ b, s.receive this msg = s.setBalance b := by
  unfold State.receive
  split
  · exact ⟨s.balance, rfl⟩
  · exact ⟨_, rfl⟩

theorem issue_eq_setBalance (this : Address) (q : OutCall) (s : State H X) :
    ∃ b, issue this q s = s.setBalance b := by
  unfold issue
  split
  · exact ⟨s.balance, rfl⟩
  · exact ⟨_, rfl⟩

/-- Nothing but the flags, the balance and the events differs. -/
structure State.Quiet (s s' : State H X) : Prop where
  delay : s'.delay = s.delay
  gracePeriod : s'.gracePeriod = s.gracePeriod
  minimumDelay : s'.minimumDelay = s.minimumDelay
  maximumDelay : s'.maximumDelay = s.maximumDelay
  guardian : s'.guardian = s.guardian
  counter : s'.actionsSetCounter = s.actionsSetCounter
  sets : s'.actionsSets = s.actionsSets
  own : s'.own = s.own

theorem State.Quiet.trans {s s' s'' : State H X} (h : s.Quiet s') (h' : s'.Quiet s'') :
    s.Quiet s'' where
  delay := h'.delay.trans h.delay
  gracePeriod := h'.gracePeriod.trans h.gracePeriod
  minimumDelay := h'.minimumDelay.trans h.minimumDelay
  maximumDelay := h'.maximumDelay.trans h.maximumDelay
  guardian := h'.guardian.trans h.guardian
  counter := h'.counter.trans h.counter
  sets := h'.sets.trans h.sets
  own := h'.own.trans h.own

/-! ## What a waiting frame relies on -/

structure Sound (ctx : List (ExecOpen H X Φ)) (w : ExecWorld H X Φ) : Prop where
  wellFormed : ∀ id, id < w.state.actionsSetCounter →
    (w.state.actionsSets id).toActions.WellFormed
  evolves : ∀ o ∈ ctx, o.world.state.Evolves w.state
  now : ∀ o ∈ ctx, o.world.now = w.now
  executing : ∀ o ∈ ctx, ∀ id, o.msg.fn = .execute id →
    id < o.world.state.actionsSetCounter ∧ (o.world.state.actionsSets id).executed = true
  distinct : ctx.Pairwise fun o o' => ∀ id, o.msg.fn = .execute id → o'.msg.fn ≠ .execute id
  /-- The outermost open frame is one of `execute`. -/
  root : ∀ o, ctx.getLast? = some o → ∃ id, o.msg.fn = .execute id

namespace Sound

variable {ctx : List (ExecOpen H X Φ)} {w w' : ExecWorld H X Φ}

/-- The same frames in a later world. -/
theorem later (h : Sound ctx w) (he : w.state.Evolves w'.state) (hn : w'.now = w.now)
    (hwf : ∀ id, id < w'.state.actionsSetCounter →
      (w'.state.actionsSets id).toActions.WellFormed) : Sound ctx w' where
  wellFormed := hwf
  evolves o ho := (h.evolves o ho).trans he
  now o ho := (h.now o ho).trans hn.symm
  executing := h.executing
  distinct := h.distinct
  root := h.root

/-- A move that queues nothing keeps the arrays. -/
theorem later_of_counter (h : Sound ctx w) (he : w.state.Evolves w'.state) (hn : w'.now = w.now)
    (hc : w'.state.actionsSetCounter = w.state.actionsSetCounter) : Sound ctx w' := by
  refine h.later he hn fun id hid => ?_
  rw [hc] at hid
  rw [he.actions id hid]
  exact h.wellFormed id hid

theorem pop {o : ExecOpen H X Φ} (h : Sound (o :: ctx) w) : Sound ctx w where
  wellFormed := h.wellFormed
  evolves o' ho' := h.evolves o' (List.mem_cons_of_mem _ ho')
  now o' ho' := h.now o' (List.mem_cons_of_mem _ ho')
  executing o' ho' := h.executing o' (List.mem_cons_of_mem _ ho')
  distinct := h.distinct.of_cons
  root o' ho' := by
    cases ctx with
    | nil => cases ho'
    | cons o₁ ctx => exact h.root o' (by rw [List.getLast?_cons_cons]; exact ho')

theorem push {o : ExecOpen H X Φ} (h : Sound ctx w) (he : o.world.state.Evolves w.state)
    (hn : o.world.now = w.now)
    (hx : ∀ id, o.msg.fn = .execute id →
      id < o.world.state.actionsSetCounter ∧ (o.world.state.actionsSets id).executed = true)
    (hd : ∀ o' ∈ ctx, ∀ id, o.msg.fn = .execute id → o'.msg.fn ≠ .execute id)
    (hr : ctx = [] → ∃ id, o.msg.fn = .execute id) : Sound (o :: ctx) w where
  wellFormed := h.wellFormed
  evolves o' ho' := by
    rcases List.mem_cons.mp ho' with rfl | ho'
    · exact he
    · exact h.evolves o' ho'
  now o' ho' := by
    rcases List.mem_cons.mp ho' with rfl | ho'
    · exact hn
    · exact h.now o' ho'
  executing o' ho' := by
    rcases List.mem_cons.mp ho' with rfl | ho'
    · exact hx
    · exact h.executing o' ho'
  distinct := List.pairwise_cons.mpr ⟨hd, h.distinct⟩
  root o' ho' := by
    cases ctx with
    | nil => cases ho'; exact hr rfl
    | cons o₁ ctx => exact h.root o' (by rwa [List.getLast?_cons_cons] at ho')

/-- A set that is being executed is stored and marked. -/
theorem executed (h : Sound ctx w) {o : ExecOpen H X Φ} (ho : o ∈ ctx) {id : Nat}
    (hf : o.msg.fn = .execute id) :
    id < w.state.actionsSetCounter ∧ (w.state.actionsSets id).executed = true := by
  obtain ⟨hlt, hex⟩ := h.executing o ho id hf
  exact ⟨Nat.lt_of_lt_of_le hlt (h.evolves o ho).counter, (h.evolves o ho).executed id hex⟩

/-- If any frame is open, a set is being executed. -/
theorem exists_execute (h : Sound ctx w) (hne : ctx ≠ []) :
    ∃ o ∈ ctx, ∃ id, o.msg.fn = .execute id := by
  obtain ⟨o, ho⟩ : ∃ o, ctx.getLast? = some o := by
    cases hl : ctx.getLast? with
    | none => exact absurd (List.getLast?_eq_none_iff.mp hl) hne
    | some o => exact ⟨o, rfl⟩
  exact ⟨o, List.mem_of_getLast? ho, h.root o ho⟩

/-- A set that passes the guards of `execute` has a first action. -/
theorem executable (h : Sound ctx w) {now : UInt256} {id : Nat}
    (hg : requireExecutable now w.state id = .ok ()) :
    (w.state.actionsSets id).toActions.WellFormed ∧ ∃ a n,
      (w.state.actionsSets id).action? 0 = some a ∧
      (w.state.actionsSets id).targets.length = n + 1 := by
  have hid : id < w.state.actionsSetCounter :=
    (getCurrentState_eq_queued.mp (requireExecutable_eq_ok.mp hg).1).1
  have hwf := h.wellFormed id hid
  obtain ⟨a, ha⟩ := hwf.action? (i := 0) hwf.nonempty
  exact ⟨hwf, a, _, ha, (Nat.succ_pred_eq_of_pos hwf.nonempty).symm⟩

end Sound

/-- The states in which the guards are evaluated differ in the balance only. -/
theorem requireExecutable_receive (this : Address) (now : UInt256) (s : State H X) (msg : Msg)
    (id : Nat) : requireExecutable now (s.receive this msg) id = requireExecutable now s id := by
  obtain ⟨b, hb⟩ := receive_eq_setBalance s this msg
  rw [hb]
  rfl

/-- A set that is `Queued` has not been marked. -/
theorem not_executed_of_queued {now : UInt256} {s : State H X} {id : Nat}
    (h : getCurrentState now s id = .ok .queued) : (s.actionsSets id).executed = false :=
  (getCurrentState_eq_queued.mp h).2.1.1

section

variable [DecidableEq H] {K : Keccak H} {child : Child X Φ} {this : Address}

/-- The state in which `execute` issues the call of its first action. -/
def State.started (K : Keccak H) (this : Address) (msg : Msg) (s : State H X) (id : Nat)
    (a : Action) : State H X :=
  ((s.receive this msg).setActionsSet id
    { s.actionsSets id with executed := true }).cleared K a (s.actionsSets id).executionTime

@[simp] theorem started_actionsSetCounter (s : State H X) (msg : Msg) (id : Nat) (a : Action) :
    (s.started K this msg id a).actionsSetCounter = s.actionsSetCounter := by
  simp [State.started, State.cleared, State.setFlags, State.setActionsSet]

@[simp] theorem started_actionsSets (s : State H X) (msg : Msg) (id : Nat) (a : Action) :
    (s.started K this msg id a).actionsSets
      = Function.update s.actionsSets id { s.actionsSets id with executed := true } := by
  simp [State.started, State.cleared, State.setFlags, State.setActionsSet]

@[simp] theorem started_queuedActions (s : State H X) (msg : Msg) (id : Nat) (a : Action) :
    (s.started K this msg id a).queuedActions
      = Function.update s.queuedActions
        (K.actionHash a (s.actionsSets id).executionTime) false := by
  simp [State.started, State.cleared, State.setFlags, State.setActionsSet]

@[simp] theorem started_gracePeriod (s : State H X) (msg : Msg) (id : Nat) (a : Action) :
    (s.started K this msg id a).gracePeriod = s.gracePeriod := by
  simp [State.started, State.cleared, State.setFlags, State.setActionsSet]

/-- `execute` that its guards stop. -/
theorem external_execute_error {now : UInt256} {m : Message Φ} {s : State H X} {id : Nat}
    {e : Error} (hf : m.fn = .execute id) (hg : requireExecutable now s id = .error e) :
    external K child this now m s = .fail e := by
  rw [external_execute hf, execute, requireExecutable_receive, hg]

/-- `execute` past its guards. -/
theorem external_execute_ok {now : UInt256} {m : Message Φ} {s : State H X} {id n : Nat}
    {a : Action} (hf : m.fn = .execute id) (hg : requireExecutable now s id = .ok ())
    (ha : (s.actionsSets id).action? 0 = some a)
    (hn : (s.actionsSets id).targets.length = n + 1) :
    external K child this now m s =
      if (s.receive this m.toMsg).balance < a.value.toNat then .fail .insufficientBalance
      else .call (s.started K this m.toMsg id a) (K.outCall a)
        (afterCall K this m.sender id n 0 []) := by
  have hslot : ((s.receive this m.toMsg).setActionsSet id
      { s.actionsSets id with executed := true }).actionsSets id
        = { s.actionsSets id with executed := true } := by
    simp [State.setActionsSet]
  rw [external_execute hf, execute, requireExecutable_receive, hg]
  simp only [receive_actionsSets]
  rw [hn, executeLoop_succ (a := a) (by rw [hslot]; exact ha), hslot]
  rfl

/-! ## Moves -/

/--
What the executor can do between two outgoing calls.

An open frame with `o.answered` answers waits for the answer to its call number `o.answered`;
in an `execute` frame this is the action with that index.
-/
inductive Move (K : Keccak H) (child : Child X Φ) (this : Address) :
    MoveRel UInt256 (Message Φ) (State H X) where
  | write {ctx w m s} : (m.sender = this → ctx ≠ []) →
      Writes K child this w.now m.toMsg w.state m.fn s →
      Move K child this (some m) ctx w ctx ((w.record m).withState s)
  | begin {ctx w m id a} : m.fn = .execute id →
      getCurrentState w.now w.state id = .ok .queued →
      (w.state.actionsSets id).executionTime ≤ w.now →
      (w.state.actionsSets id).action? 0 = some a →
      Move K child this (some m) ctx w
        (⟨m, 0, (w.record m).withState (w.state.started K this m.toMsg id a)⟩ :: ctx)
        ((w.record m).withState (w.state.started K this m.toMsg id a))
  | delegate {ctx w m target data} : m.fn = .executeDelegateCall target data →
      m.sender = this → ctx ≠ [] →
      Move K child this (some m) ctx w (⟨m, 0, w.record m⟩ :: ctx) (w.record m)
  | next {o ctx w id a} : o.msg.fn = .execute id →
      (w.state.actionsSets id).action? (o.answered + 1) = some a →
      Move K child this none (o :: ctx) w
        (⟨o.msg, o.answered + 1,
          w.withState (w.state.cleared K a (w.state.actionsSets id).executionTime)⟩ :: ctx)
        (w.withState (w.state.cleared K a (w.state.actionsSets id).executionTime))
  | finish {o ctx w id rd} : o.msg.fn = .execute id →
      o.answered + 1 = (w.state.actionsSets id).targets.length →
      Move K child this none (o :: ctx) w ctx
        (w.withState (w.state.emit (.actionsSetExecuted id o.msg.sender rd)))
  | finishDelegate {o ctx w target data} : o.msg.fn = .executeDelegateCall target data →
      Move K child this none (o :: ctx) w ctx w
  | balance {ctx w b} : Move K child this none ctx w ctx (w.withState (w.state.setBalance b))
  | log {ctx w topics data} :
    Move K child this none ctx w ctx (w.withState (w.state.emit (.delegated topics data)))
  | advance {w t} : w.now ≤ t → Move K child this none [] w [] { w with now := t }

/-- A move that accepts no message. -/
theorem Move.quiet {ctx ctx' : List (ExecOpen H X Φ)} {w w' : ExecWorld H X Φ}
    (h : Move K child this none ctx w ctx' w') : w.state.Quiet w'.state ∧
      w'.journal = w.journal ∧ (w'.now = w.now ∨ ctx = []) := by
  cases h with
  | advance ht => exact ⟨⟨rfl, rfl, rfl, rfl, rfl, rfl, rfl, rfl⟩, rfl, Or.inr rfl⟩
  | _ => exact ⟨⟨rfl, rfl, rfl, rfl, rfl, rfl, rfl, rfl⟩, rfl, Or.inl rfl⟩

theorem Writes.evolves {now : UInt256} {msg : Msg} {s s' : State H X} {f : Fn Φ}
    (h : Writes K child this now msg s f s') : s.Evolves s' := by
  cases h with
  | cancel hg hq =>
    exact .of_update (Nat.le_refl _) rfl (fun _ => ⟨rfl, rfl⟩) (fun h => h) (fun _ => rfl)
  | queue hh hwf hsum hnd hfree =>
    exact .of_update (Nat.le_succ _) rfl (fun h => absurd h (Nat.lt_irrefl _)) (fun h => h)
      (fun h => h)
  | receiveFunds => exact .of_eq (by simp) (by simp)
  | _ => exact .of_eq rfl rfl

theorem State.started_evolves (s : State H X) (msg : Msg) (id : Nat) (a : Action) :
    s.Evolves (s.started K this msg id a) := by
  refine .of_update (k := id) (a := { s.actionsSets id with executed := true }) ?_ ?_
    (fun _ => ⟨rfl, rfl⟩) (fun _ => rfl) (fun h => h)
  · exact Nat.le_of_eq (started_actionsSetCounter ..).symm
  · exact started_actionsSets ..

/-- **Every move only adds sets and marks them.** -/
theorem Move.evolves {l : Option (Message Φ)} {ctx ctx' : List (ExecOpen H X Φ)}
    {w w' : ExecWorld H X Φ} (h : Move K child this l ctx w ctx' w') :
    w.state.Evolves w'.state := by
  cases h with
  | write _ hw => exact hw.evolves
  | begin hf hq ht ha => exact State.started_evolves ..
  | _ => exact .of_eq rfl rfl

/-! ## Moves keep it -/

theorem Sound.write {ctx : List (ExecOpen H X Φ)} {w : ExecWorld H X Φ} {m : Message Φ}
    {s : State H X} (h : Sound ctx w) (hw : Writes K child this w.now m.toMsg w.state m.fn s) :
    Sound ctx ((w.record m).withState s) := by
  refine h.later hw.evolves rfl fun id hid => ?_
  by_cases hold : id < w.state.actionsSetCounter
  · show (s.actionsSets id).toActions.WellFormed
    rw [hw.evolves.actions id hold]
    exact h.wellFormed id hold
  · -- only `_queue` moves the counter, and it has checked the new set
    generalize m.fn = f at hw
    cases hw with
    | queue hh hwf hsum hnd hfree =>
      have hid' : id = w.state.actionsSetCounter := by
        have : id < w.state.actionsSetCounter + 1 := hid
        omega
      subst hid'
      simpa [State.queued, State.emit, State.setActionsSet] using hwf
    | receiveFunds => exact absurd (by simpa using hid) hold
    | _ => exact absurd hid hold

theorem Sound.keep {l : Option (Message Φ)} {ctx ctx' : List (ExecOpen H X Φ)}
    {w w' : ExecWorld H X Φ} (hm : Move K child this l ctx w ctx' w') (h : Sound ctx w) :
    Sound ctx' w' := by
  cases hm with
  | write _ hw => exact h.write hw
  | @begin _ _ m id a hf hq ht ha =>
    have hev : w.state.Evolves (w.state.started K this m.toMsg id a) :=
      State.started_evolves ..
    have hc : (w.state.started K this m.toMsg id a).actionsSetCounter
        = w.state.actionsSetCounter := started_actionsSetCounter ..
    have hlater : Sound ctx ((w.record m).withState (w.state.started K this m.toMsg id a)) :=
      h.later_of_counter hev rfl hc
    refine hlater.push (.refl _) rfl ?_ ?_ fun _ => ⟨id, hf⟩
    · intro id' hid'
      cases hf.symm.trans hid'
      refine ⟨by rw [World.withState_state, hc]; exact (getCurrentState_eq_queued.mp hq).1, ?_⟩
      simp
    · intro o' ho' id' hid' hid''
      cases hf.symm.trans hid'
      exact absurd (not_executed_of_queued hq) (by rw [(h.executed ho' hid'').2]; simp)
  | @delegate _ _ m target data hf hs hne =>
    refine Sound.push (o := ⟨m, 0, w.record m⟩) (h.later_of_counter (.refl _) rfl rfl)
      (.refl _) rfl ?_ ?_ fun hn => absurd hn hne
    · intro id hid; rw [hf] at hid; cases hid
    · intro o' _ id hid; rw [hf] at hid; cases hid
  | @next o ctx _ id a hf ha =>
    have hlater : Sound ctx
        (w.withState (w.state.cleared K a (w.state.actionsSets id).executionTime)) :=
      h.pop.later_of_counter (.of_eq rfl rfl) rfl rfl
    refine hlater.push (.refl _) rfl ?_ (List.pairwise_cons.mp h.distinct).1 ?_
    · intro id' hid'
      exact h.executed List.mem_cons_self hid'
    · rintro rfl
      exact h.root o rfl
  | finish hf hn => exact h.pop.later_of_counter (.of_eq rfl rfl) rfl rfl
  | finishDelegate hf => exact h.pop
  | balance => exact h.later_of_counter (.of_eq rfl rfl) rfl rfl
  | log => exact h.later_of_counter (.of_eq rfl rfl) rfl rfl
  | advance ht => exact ⟨h.wellFormed, by simp, by simp, by simp, by simp, by simp⟩

end

end BridgeExecutor

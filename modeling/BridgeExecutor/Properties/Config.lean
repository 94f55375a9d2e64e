import BridgeExecutor.Properties.Executing

/-!
# The delay parameters

The constructor and the four setters keep `_delay` between the two bounds, the bounds apart, and
the grace period above its minimum.  Each setter compares its argument with the values of the
others, so not every order of updates goes through.

* `validConfig_of_reachable` — the parameters are valid at any moment, inside frames as well
* `config_invariant` — and an update that would break them is rejected
* `reconfigure` — for any two valid triples of delays some order of the three setters leads from
  the first to the second
-/

namespace BridgeExecutor

open Reentrant BridgeExecutorBase

variable {H X Φ : Type}

/-- The checks of the constructor, as a property of the storage. -/
structure State.ValidConfig (s : State H X) : Prop where
  minimum_lt_maximum : s.minimumDelay < s.maximumDelay
  minimum_le : s.minimumDelay ≤ s.delay
  le_maximum : s.delay ≤ s.maximumDelay
  gracePeriod : minimumGracePeriod ≤ s.gracePeriod

/-- What a setter writes if its checks pass. -/
def State.updated (s : State H X) : Fn Φ → State H X
  | .updateGuardian guardian => s.updateGuardian guardian
  | .updateDelay delay => s.updateDelay delay
  | .updateGracePeriod gracePeriod => s.updateGracePeriod gracePeriod
  | .updateMinimumDelay minimumDelay => s.updateMinimumDelay minimumDelay
  | .updateMaximumDelay maximumDelay => s.updateMaximumDelay maximumDelay
  | _ => s

/-! ## The invariant -/

namespace State.ValidConfig

/-- Only the four parameters matter. -/
theorem congr {s s' : State H X} (h : s.ValidConfig) (hd : s'.delay = s.delay)
    (hg : s'.gracePeriod = s.gracePeriod) (hmin : s'.minimumDelay = s.minimumDelay)
    (hmax : s'.maximumDelay = s.maximumDelay) : s'.ValidConfig := by
  refine ⟨?_, ?_, ?_, ?_⟩
  · rw [hmin, hmax]; exact h.minimum_lt_maximum
  · rw [hmin, hd]; exact h.minimum_le
  · rw [hd, hmax]; exact h.le_maximum
  · rw [hg]; exact h.gracePeriod

theorem setBalance {s : State H X} (h : s.ValidConfig) (b : Nat) : (s.setBalance b).ValidConfig :=
  h.congr rfl rfl rfl rfl

theorem receive {s : State H X} (h : s.ValidConfig) (this : Address) (msg : Msg) :
    (s.receive this msg).ValidConfig := by
  obtain ⟨b, hb⟩ := receive_eq_setBalance s this msg
  rw [hb]
  exact h.setBalance b

end State.ValidConfig

theorem Constructed.validConfig {t : UInt256} {s : State H X} (h : Constructed t s) :
    s.ValidConfig := by
  obtain ⟨delay, gracePeriod, minimumDelay, maximumDelay, guardian, own, balance, hs⟩ := h
  obtain ⟨⟨hg, hlt, hmin, hmax⟩, rfl⟩ := construct_eq_ok.mp hs
  exact ⟨hlt, hmin, hmax, hg⟩

section

variable [DecidableEq H] {K : Keccak H} {child : Child X Φ} {this : Address}

/-- What a setter has checked is what the invariant needs. -/
theorem Writes.validConfig {now : UInt256} {msg : Msg} {s s' : State H X} {f : Fn Φ}
    (h : Writes K child this now msg s f s') (hs : s.ValidConfig) : s'.ValidConfig := by
  cases h with
  | updateDelay _ hd => exact ⟨hs.minimum_lt_maximum, hd.1, hd.2, hs.gracePeriod⟩
  | updateGracePeriod _ hg => exact ⟨hs.minimum_lt_maximum, hs.minimum_le, hs.le_maximum, hg⟩
  | updateMinimumDelay _ hlt hd => exact ⟨hlt, hd.1, hd.2, hs.gracePeriod⟩
  | updateMaximumDelay _ hlt hd => exact ⟨hlt, hd.1, hd.2, hs.gracePeriod⟩
  | receiveFunds => exact hs.receive this msg
  | _ => exact hs.congr rfl rfl rfl rfl

theorem State.started_validConfig {s : State H X} (hs : s.ValidConfig) (msg : Msg) (id : Nat)
    (a : Action) : (s.started K this msg id a).ValidConfig :=
  (hs.receive this msg).congr rfl rfl rfl rfl

theorem Move.validConfig {l : Option (Message Φ)} {ctx ctx' : List (ExecOpen H X Φ)}
    {w w' : ExecWorld H X Φ} (h : Move K child this l ctx w ctx' w')
    (hw : w.state.ValidConfig) : w'.state.ValidConfig := by
  cases h with
  | write _ hwrites => exact hwrites.validConfig hw
  | begin hf hq ht ha => exact State.started_validConfig hw _ _ _
  | delegate hf hs hne => exact hw
  | finishDelegate hf => exact hw
  | advance ht => exact hw
  | _ => exact hw.congr rfl rfl rfl rfl

/-- The run lemma of `Move.validConfig`. -/
theorem validConfig_of_reachable {c : ExecConfig H X Φ}
    (hc : Reachable (executor K child this) Constructed c) : c.world.state.ValidConfig :=
  (executor_refines K child this).invariant (I := fun _ w => w.state.ValidConfig)
    (fun h => h.validConfig) (fun hm _ hw => hm.validConfig hw) hc

/-! ## Updates that would break it -/

/-- An accepted call leaves valid parameters valid, in particular a setter's. -/
theorem validConfig_updated_of_external {now : UInt256} {m : Message Φ} {s : State H X}
    (hs : s.ValidConfig) (h : ∀ e, external K child this now m s ≠ .fail e) :
    (s.updated m.fn).ValidConfig := by
  cases hp : plain K child this now m.toMsg s m.fn with
  | none =>
    -- the two functions that `plain` leaves out are no setters
    cases hf : m.fn with
    | execute id => exact hs
    | executeDelegateCall target data => exact hs
    | _ => rw [hf] at hp; simp [plain] at hp
  | some r =>
    rw [external_plain hp] at h
    cases r with
    | error e => exact absurd rfl (h e)
    | ok s' =>
      have hw := Writes.of_plain hp
      have hs' := hw.validConfig hs
      generalize m.fn = f at hw
      cases hw with
      | updateGuardian _ => exact hs'
      | updateDelay _ _ => exact hs'
      | updateGracePeriod _ _ => exact hs'
      | updateMinimumDelay _ _ _ => exact hs'
      | updateMaximumDelay _ _ _ => exact hs'
      | _ => exact hs

/--
**The parameters are valid in every reachable configuration, and stay so by rejection.**

The step that rejects a call leads back to the configuration it started from.
-/
theorem config_invariant {c : ExecConfig H X Φ}
    (hc : Reachable (executor K child this) Constructed c) :
    c.world.state.ValidConfig ∧
    ∀ m : Message Φ, ¬ (c.world.state.updated m.fn).ValidConfig →
      (∀ c', ¬ Step (executor K child this) c (.call m) c') ∧
      ((executor K child this).MayCall c.stack m.sender →
        ∃ e, Step (executor K child this) c (.reject m e) c) := by
  have hv := validConfig_of_reachable hc
  refine ⟨hv, fun m hm => ?_⟩
  obtain ⟨e, he⟩ : ∃ e, external K child this c.world.now m c.world.state = .fail e := by
    by_contra hne
    exact hm (validConfig_updated_of_external hv fun e he => hne ⟨e, he⟩)
  exact ⟨fun c' => Step.not_call he, fun hmay => ⟨e, .callReverts hmay he⟩⟩

/-- While the call of the example run is out, its target cannot shorten the grace period. -/
theorem config_invariant_running :
    Example.running.world.state.ValidConfig ∧
      ∃ e, Step (executor Example.keccak Example.child Example.this) Example.running
        (.reject ⟨⟨5, 0, .ok 0⟩, .updateGracePeriod 5⟩ e) Example.running := by
  obtain ⟨hvalid, hreject⟩ := config_invariant Example.reachable_running
  have hbreaks : ¬ (Example.running.world.state.updated
      (.updateGracePeriod 5 : Fn L2Fn)).ValidConfig := fun h => absurd h.gracePeriod (by decide)
  exact ⟨hvalid, (hreject ⟨⟨5, 0, .ok 0⟩, .updateGracePeriod 5⟩ hbreaks).2 rfl⟩

/-! ## Leading from one configuration to another -/

/-- The functions `fs` called one after the other by the executor itself; `none` if one of the
calls does not return. -/
def selfCalls (K : Keccak H) (child : Child X Φ) (this : Address) (now : UInt256) (msg : Msg) :
    List (Fn Φ) → State H X → Option (State H X)
  | [], s => some s
  | f :: fs, s =>
    match external K child this now ⟨{ msg with sender := this, value := 0 }, f⟩ s with
    | .done s' () => selfCalls K child this now msg fs s'
    | _ => none

theorem selfCalls_cons {now : UInt256} {msg : Msg} {f : Fn Φ} {fs : List (Fn Φ)}
    {s s' : State H X}
    (h : plain K child this now { msg with sender := this, value := 0 } s f = some (.ok s')) :
    selfCalls K child this now msg (f :: fs) s = selfCalls K child this now msg fs s' := by
  rw [selfCalls, external_plain h]
  rfl

theorem selfCalls_updateDelay {now : UInt256} {msg : Msg} {fs : List (Fn Φ)} {s : State H X}
    {delay : UInt256} (hmin : s.minimumDelay ≤ delay) (hmax : delay ≤ s.maximumDelay) :
    selfCalls K child this now msg (.updateDelay delay :: fs) s
      = selfCalls K child this now msg fs (s.updateDelay delay) :=
  selfCalls_cons <| congrArg some <| nonPayable_eq_ok.mpr
    ⟨rfl, updateDelay_eq_ok.mpr ⟨rfl, ⟨hmin, hmax⟩, rfl⟩⟩

theorem selfCalls_updateMinimumDelay {now : UInt256} {msg : Msg} {fs : List (Fn Φ)}
    {s : State H X} {minimumDelay : UInt256} (hlt : minimumDelay < s.maximumDelay)
    (hmin : minimumDelay ≤ s.delay) (hmax : s.delay ≤ s.maximumDelay) :
    selfCalls K child this now msg (.updateMinimumDelay minimumDelay :: fs) s
      = selfCalls K child this now msg fs (s.updateMinimumDelay minimumDelay) :=
  selfCalls_cons <| congrArg some <| nonPayable_eq_ok.mpr
    ⟨rfl, updateMinimumDelay_eq_ok.mpr ⟨rfl, hlt, ⟨hmin, hmax⟩, rfl⟩⟩

theorem selfCalls_updateMaximumDelay {now : UInt256} {msg : Msg} {fs : List (Fn Φ)}
    {s : State H X} {maximumDelay : UInt256} (hlt : s.minimumDelay < maximumDelay)
    (hmin : s.minimumDelay ≤ s.delay) (hmax : s.delay ≤ maximumDelay) :
    selfCalls K child this now msg (.updateMaximumDelay maximumDelay :: fs) s
      = selfCalls K child this now msg fs (s.updateMaximumDelay maximumDelay) :=
  selfCalls_cons <| congrArg some <| nonPayable_eq_ok.mpr
    ⟨rfl, updateMaximumDelay_eq_ok.mpr ⟨rfl, hlt, ⟨hmin, hmax⟩, rfl⟩⟩

/--
**Reconfiguration has no trap.**

The new delay moves towards the old range from outside: if it lies above, the maximum goes first,
if it lies below, the minimum does.  If it lies inside, the delay goes first, and the only trap
left is a new minimum that meets the old maximum.
-/
theorem reconfigure (K : Keccak H) (child : Child X Φ) (this : Address) (now : UInt256)
    (msg : Msg) {s : State H X} {minimumDelay delay maximumDelay : UInt256}
    (hs : s.minimumDelay < s.maximumDelay) (hsmin : s.minimumDelay ≤ s.delay)
    (hsmax : s.delay ≤ s.maximumDelay) (h : minimumDelay < maximumDelay)
    (hmin : minimumDelay ≤ delay) (hmax : delay ≤ maximumDelay) :
    ∃ fs : List (Fn Φ), fs.Perm [.updateMinimumDelay minimumDelay, .updateDelay delay,
        .updateMaximumDelay maximumDelay] ∧
      ∃ s', selfCalls K child this now msg fs s = some s' ∧ s'.minimumDelay = minimumDelay ∧
        s'.delay = delay ∧ s'.maximumDelay = maximumDelay := by
  by_cases hup : s.maximumDelay < delay
  · refine ⟨[.updateMaximumDelay maximumDelay, .updateDelay delay,
      .updateMinimumDelay minimumDelay], List.reverse_perm [_, _, _],
      ((s.updateMaximumDelay maximumDelay).updateDelay delay).updateMinimumDelay minimumDelay,
      ?_, rfl, rfl, rfl⟩
    have hmm : s.minimumDelay < maximumDelay := by bv_omega
    have hold : s.delay ≤ maximumDelay := by bv_omega
    have hnew : s.minimumDelay ≤ delay := by bv_omega
    rw [selfCalls_updateMaximumDelay hmm hsmin hold,
      selfCalls_updateDelay (s := s.updateMaximumDelay maximumDelay) hnew hmax,
      selfCalls_updateMinimumDelay
        (s := (s.updateMaximumDelay maximumDelay).updateDelay delay) h hmin hmax]
    rfl
  have hle : delay ≤ s.maximumDelay := BitVec.not_lt.mp hup
  by_cases hdown : delay < s.minimumDelay
  · refine ⟨[.updateMinimumDelay minimumDelay, .updateDelay delay,
      .updateMaximumDelay maximumDelay], List.Perm.refl _,
      ((s.updateMinimumDelay minimumDelay).updateDelay delay).updateMaximumDelay maximumDelay,
      ?_, rfl, rfl, rfl⟩
    have hmm : minimumDelay < s.maximumDelay := by bv_omega
    have hold : minimumDelay ≤ s.delay := by bv_omega
    rw [selfCalls_updateMinimumDelay hmm hold hsmax,
      selfCalls_updateDelay (s := s.updateMinimumDelay minimumDelay) hmin hle,
      selfCalls_updateMaximumDelay
        (s := (s.updateMinimumDelay minimumDelay).updateDelay delay) h hmin hmax]
    rfl
  have hge : s.minimumDelay ≤ delay := BitVec.not_lt.mp hdown
  by_cases hlt : minimumDelay < s.maximumDelay
  · refine ⟨[.updateDelay delay, .updateMinimumDelay minimumDelay,
      .updateMaximumDelay maximumDelay], List.Perm.swap _ _ _,
      ((s.updateDelay delay).updateMinimumDelay minimumDelay).updateMaximumDelay maximumDelay,
      ?_, rfl, rfl, rfl⟩
    rw [selfCalls_updateDelay hge hle,
      selfCalls_updateMinimumDelay (s := s.updateDelay delay) hlt hmin hle,
      selfCalls_updateMaximumDelay
        (s := (s.updateDelay delay).updateMinimumDelay minimumDelay) h hmin hmax]
    rfl
  · -- the new delay is the old maximum, and the new minimum as well
    refine ⟨[.updateDelay delay, .updateMaximumDelay maximumDelay,
      .updateMinimumDelay minimumDelay], List.perm_append_singleton _ [_, _],
      ((s.updateDelay delay).updateMaximumDelay maximumDelay).updateMinimumDelay minimumDelay,
      ?_, rfl, rfl, rfl⟩
    have hmm : s.minimumDelay < maximumDelay := by bv_omega
    rw [selfCalls_updateDelay hge hle,
      selfCalls_updateMaximumDelay (s := s.updateDelay delay) hmm hge hmax,
      selfCalls_updateMinimumDelay
        (s := (s.updateDelay delay).updateMaximumDelay maximumDelay) h hmin hmax]
    rfl

/-- From delays in `[0, 200]` to delays in `[300, 500]`. -/
theorem reconfigure_start : ∃ fs : List (Fn L2Fn),
    fs.Perm [.updateMinimumDelay 300, .updateDelay 400, .updateMaximumDelay 500] ∧
      ∃ s', selfCalls Example.keccak Example.child Example.this 1000 ⟨9, 0, .ok 0⟩ fs
        Example.start = some s' ∧ s'.minimumDelay = 300 ∧ s'.delay = 400 ∧
        s'.maximumDelay = 500 :=
  reconfigure Example.keccak Example.child Example.this 1000 ⟨9, 0, .ok 0⟩ (by decide)
    (by decide) (by decide) (by decide) (by decide) (by decide)

end

end BridgeExecutor

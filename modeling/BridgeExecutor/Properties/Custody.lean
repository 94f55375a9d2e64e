import BridgeExecutor.Properties.History

/-!
# The chain of custody

Two things give power over an executor: queueing a set, and changing what decides who may queue,
cancel and how long everybody waits.  The first needs a message from the governance on Ethereum,
the second a call of the executor to itself, which only a running set can make.

* `polygon_origin`, `optimism_origin`, `arbitrum_origin` — what the three contracts check
* `custody_of_reachable` — for any inheriting contract
* `custody` — for the three of the repository
-/

namespace BridgeExecutor

open Reentrant BridgeExecutorBase

variable {H X Φ : Type}

/-! ## What the three contracts check -/

/-- The fx child delivers a message of the fx root sender. -/
def PolygonOrigin (r : ExecRecord H PolygonStorage PolygonFn) : Prop :=
  r.msg.sender = r.pre.own.fxChild ∧ ∃ stateId data,
    r.msg.fn = .own (.processMessageFromRoot stateId r.pre.own.fxRootSender data)

/-- The messenger delivers a message of the governance executor. -/
def OptimismOrigin (ovmL2CrossDomainMessenger : Address) (r : ExecRecord H L2Storage L2Fn) :
    Prop :=
  r.msg.sender = ovmL2CrossDomainMessenger ∧
    r.msg.xDomainMessageSender = .ok r.pre.own.ethereumGovernanceExecutor

/-- The sender is the alias of the governance executor. -/
def ArbitrumOrigin (r : ExecRecord H L2Storage L2Fn) : Prop :=
  r.msg.sender = r.pre.own.ethereumGovernanceExecutor
    + 0x1111000000000000000000000000000000001111

theorem polygon_origin {abiDecode : Bytes → Option Actions} {this : Address}
    {r : ExecRecord H PolygonStorage PolygonFn} {f : PolygonFn} {a : Actions}
    (hf : r.msg.fn = .own f)
    (h : (polygonBridgeExecutor abiDecode).handle this r.msg.toMsg r.pre.own f = .ok (.queue a)) :
    PolygonOrigin r := by
  unfold polygonBridgeExecutor at h
  cases f with
  | processMessageFromRoot stateId rootMessageSender data =>
    dsimp only at h
    split at h
    · cases h
    next hchild =>
    split at h
    · cases h
    next hroot =>
    obtain rfl := not_not.mp hroot
    exact ⟨not_not.mp hchild, stateId, data, hf⟩
  | updateFxRootSender fxRootSender => dsimp only at h; split at h <;> cases h
  | updateFxChild fxChild => dsimp only at h; split at h <;> cases h

/-- `L2BridgeExecutor` leaves the check to its modifier. -/
theorem l2_origin {guard : Msg → L2Storage → Except Error Unit} {this : Address} {msg : Msg}
    {own : L2Storage} {f : L2Fn} {a : Actions}
    (h : (l2BridgeExecutor guard).handle this msg own f = .ok (.queue a)) :
    guard msg own = .ok () := by
  unfold l2BridgeExecutor at h
  cases f with
  | queue actions =>
    dsimp only at h
    split at h
    · cases h
    · next hg => exact hg
  | updateEthereumGovernanceExecutor ethereumGovernanceExecutor =>
    dsimp only at h
    split at h <;> cases h

theorem optimism_origin {ovmL2CrossDomainMessenger : Address} {this : Address}
    {r : ExecRecord H L2Storage L2Fn} {f : L2Fn} {a : Actions}
    (h : (optimismBridgeExecutor ovmL2CrossDomainMessenger).handle this r.msg.toMsg r.pre.own f
      = .ok (.queue a)) : OptimismOrigin ovmL2CrossDomainMessenger r := by
  have hg := l2_origin h
  unfold optimismOnlyEthereumGovernanceExecutor at hg
  split at hg
  · cases hg
  next hsender =>
  split at hg
  · cases hg
  next sender hx =>
  split at hg
  · cases hg
  next hgov =>
  obtain rfl := not_not.mp hgov
  exact ⟨not_not.mp hsender, hx⟩

theorem arbitrum_origin {this : Address} {r : ExecRecord H L2Storage L2Fn} {f : L2Fn}
    {a : Actions}
    (h : arbitrumBridgeExecutor.handle this r.msg.toMsg r.pre.own f = .ok (.queue a)) :
    ArbitrumOrigin r := by
  have hg := l2_origin h
  unfold arbitrumOnlyEthereumGovernanceExecutor at hg
  split at hg
  · cases hg
  next hgov =>
  have hundo := not_not.mp hgov
  have halias := congrArg AddressAliasHelper.applyL1ToL2Alias hundo
  rw [AddressAliasHelper.apply_undo] at halias
  exact halias

/-- The functions of the inheriting contract that write its storage can be called by the executor
alone. -/
def Child.SelfWritten (child : Child X Φ) : Prop :=
  ∀ this msg own f own' event, child.handle this msg own f = .ok (.write own' event) →
    msg.sender = this

theorem selfWritten_polygon (abiDecode : Bytes → Option Actions) :
    (polygonBridgeExecutor abiDecode).SelfWritten := by
  intro this msg own f own' event h
  unfold polygonBridgeExecutor at h
  cases f with
  | processMessageFromRoot stateId rootMessageSender data =>
    dsimp only at h
    split at h
    · cases h
    split at h
    · cases h
    split at h <;> cases h
  | updateFxRootSender fxRootSender =>
    dsimp only at h
    split at h
    · cases h
    · next hs => exact not_not.mp hs
  | updateFxChild fxChild =>
    dsimp only at h
    split at h
    · cases h
    · next hs => exact not_not.mp hs

theorem selfWritten_l2 (guard : Msg → L2Storage → Except Error Unit) :
    (l2BridgeExecutor guard).SelfWritten := by
  intro this msg own f own' event h
  unfold l2BridgeExecutor at h
  cases f with
  | queue actions => dsimp only at h; split at h <;> cases h
  | updateEthereumGovernanceExecutor ethereumGovernanceExecutor =>
    dsimp only at h
    split at h
    · cases h
    · next hs => exact not_not.mp hs

/-! ## Custody -/

/-- The values that governance holds: those of `BridgeExecutorBase`, and the storage of the
inheriting contract. -/
def State.governed (s : State H X) :
    UInt256 × UInt256 × UInt256 × UInt256 × Address × X :=
  (s.delay, s.gracePeriod, s.minimumDelay, s.maximumDelay, s.guardian, s.own)

theorem State.Quiet.governed {s s' : State H X} (h : s.Quiet s') : s'.governed = s.governed := by
  rw [State.governed, State.governed, h.delay, h.gracePeriod, h.minimumDelay, h.maximumDelay,
    h.guardian, h.own]

/-- Every stored set comes from a message of the right origin, and the governed values change
only while such a set is being executed. -/
structure Custody [DecidableEq H] (K : Keccak H) (child : Child X Φ) (this : Address)
    (Origin : ExecRecord H X Φ → Prop) (c : ExecConfig H X Φ) : Prop where
  created : ∀ id, id < c.world.state.actionsSetCounter →
    ∃ q, (creations child this c.world.journal)[id]? = some q ∧ Origin q.record ∧
      (c.world.state.actionsSets id).toActions = q.actions
  changed : ∀ a c', Step (executor K child this) c a c' → ¬ a.Undoes →
    c'.world.state.governed ≠ c.world.state.governed →
    ∃ o ∈ opens c.stack, ∃ id q, o.msg.fn = .execute id ∧
      (creations child this c.world.journal)[id]? = some q ∧ Origin q.record

section

variable [DecidableEq H] {K : Keccak H} {child : Child X Φ} {this : Address}

/-- A setter is called by the executor itself. -/
theorem Writes.governed {now : UInt256} {msg : Msg} {s s' : State H X} {f : Fn Φ}
    (hchild : child.SelfWritten) (h : Writes K child this now msg s f s')
    (hne : s'.governed ≠ s.governed) : msg.sender = this := by
  cases h with
  | updateGuardian hs => exact hs
  | updateDelay hs _ => exact hs
  | updateGracePeriod hs _ => exact hs
  | updateMinimumDelay hs _ _ => exact hs
  | updateMaximumDelay hs _ _ => exact hs
  | write hh => exact hchild _ _ _ _ _ _ hh
  | receiveFunds =>
    obtain ⟨b, hb⟩ := receive_eq_setBalance s this msg
    rw [hb] at hne
    exact absurd rfl hne
  | _ => exact absurd rfl hne

/-- **A move that changes a governed value is made below an open frame.** -/
theorem Move.governed {l : Option (Message Φ)} {ctx ctx' : List (ExecOpen H X Φ)}
    {w w' : ExecWorld H X Φ} (hchild : child.SelfWritten) (h : Move K child this l ctx w ctx' w')
    (hne : w'.state.governed ≠ w.state.governed) : ctx ≠ [] := by
  cases h with
  | write hs hw => exact hs (hw.governed hchild hne)
  | @begin _ _ m id a hf hq ht ha =>
    obtain ⟨b, hb⟩ := receive_eq_setBalance w.state this m.toMsg
    refine absurd ?_ hne
    show (w.state.started K this m.toMsg id a).governed = _
    rw [State.started, hb]
    rfl
  | _ => exact absurd rfl hne

theorem custody_of_reachable {Origin : ExecRecord H X Φ → Prop} (hchild : child.SelfWritten)
    (horigin : ∀ (r : ExecRecord H X Φ) f a, r.msg.fn = .own f →
      child.handle this r.msg.toMsg r.pre.own f = .ok (.queue a) → Origin r)
    {c : ExecConfig H X Φ} (hc : Reachable (executor K child this) Constructed c) :
    Custody K child this Origin c := by
  have hst := stored_of_reachable hc
  have hcreated : ∀ id, id < c.world.state.actionsSetCounter →
      ∃ q, (creations child this c.world.journal)[id]? = some q ∧ Origin q.record ∧
        (c.world.state.actionsSets id).toActions = q.actions := by
    intro id hid
    obtain ⟨q, hq, hmem, hact, -⟩ := hst.creation hid
    obtain ⟨-, f, hf, hh⟩ := handle_of_mem_creations hmem
    exact ⟨q, hq, horigin _ f _ hf hh, hact⟩
  refine ⟨hcreated, fun a c' hs ha hne => ?_⟩
  have hopen : opens c.stack ≠ [] := by
    rcases step_cases hc hs with ⟨w, -, hquiet, -, -, -, hfwd⟩ | ⟨m, ctx, w, -, hm, hquiet, -⟩
    · rw [hquiet.governed, (hfwd ha).1] at hne
      exact absurd rfl hne
    · rw [hquiet.governed] at hne
      exact hm.governed hchild hne
  have hsound := sound_of_reachable hc
  obtain ⟨o, ho, id, hf⟩ := hsound.exists_execute hopen
  obtain ⟨q, hq, hq', -⟩ := hcreated id (hsound.executed ho hf).1
  exact ⟨o, ho, id, q, hf, hq, hq'⟩

end

/-- **The chain of custody of the three executors.** -/
theorem custody [DecidableEq H] (K : Keccak H) (this : Address) :
    (∀ abiDecode c,
      Reachable (executor K (polygonBridgeExecutor abiDecode) this) Constructed c →
      Custody K (polygonBridgeExecutor abiDecode) this PolygonOrigin c) ∧
    (∀ ovmL2CrossDomainMessenger c,
      Reachable (executor K (optimismBridgeExecutor ovmL2CrossDomainMessenger) this)
        Constructed c →
      Custody K (optimismBridgeExecutor ovmL2CrossDomainMessenger) this
        (OptimismOrigin ovmL2CrossDomainMessenger) c) ∧
    (∀ c, Reachable (executor K arbitrumBridgeExecutor this) Constructed c →
      Custody K arbitrumBridgeExecutor this ArbitrumOrigin c) := by
  refine ⟨fun abiDecode c hc => ?_, fun ovm c hc => ?_, fun c hc => ?_⟩
  · exact custody_of_reachable (selfWritten_polygon abiDecode)
      (fun r f a hf h => polygon_origin hf h) hc
  · exact custody_of_reachable (selfWritten_l2 _) (fun r f a hf h => optimism_origin h) hc
  · exact custody_of_reachable (selfWritten_l2 _) (fun r f a hf h => arbitrum_origin h) hc

/-- The set of the example run was queued by the alias of its governance; executors of the other
two kinds have custody from their construction on. -/
theorem custody_running :
    (∃ q, (creations Example.child Example.this Example.running.world.journal)[0]? = some q ∧
      q.record.msg.sender = Example.governance + 0x1111000000000000000000000000000000001111) ∧
    Custody Example.keccak (optimismBridgeExecutor 0x70) Example.this (OptimismOrigin 0x70)
      ⟨⟨1000, Example.start, []⟩, []⟩ ∧
    ∃ s, Constructed 1000 s ∧ Custody Example.keccak (polygonBridgeExecutor fun _ => none)
      Example.this PolygonOrigin ⟨⟨1000, s, []⟩, []⟩ := by
  have hcustody := custody Example.keccak Example.this
  obtain ⟨q, hq, horigin, -⟩ := (hcustody.2.2 _ Example.reachable_running).created 0 (by decide)
  have hrecord : (creations Example.child Example.this Example.running.world.journal)[0]?
      = some ⟨⟨1000, Example.queueMessage, Example.start⟩, Example.actions⟩ := rfl
  obtain rfl := Option.some.inj (hrecord.symm.trans hq)
  have hpolygon : Constructed (H := List UInt8) 1000 _ :=
    ⟨100, 600, 0, 200, 7, (⟨0x60, 0x61⟩ : PolygonStorage), 0, rfl⟩
  exact ⟨⟨_, hq, horigin⟩, hcustody.2.1 _ _ (.init (Example.constructed_start 1000)),
    _, hpolygon, hcustody.1 _ _ (.init hpolygon)⟩

end BridgeExecutor

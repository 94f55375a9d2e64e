import BridgeExecutor.Contracts.CustomPolygonMapping
import BridgeExecutor.Lib.Ledger
import BridgeExecutor.Reentrant.Local

/-!
# The state sender

`CustomPolygonMapping` calls whoever is registered, in the middle of `syncState`, and the callee
may do with the contract what it likes.  All writes come before that call, so a move is one
message and one event: `mappingLedger` is the contract as its events show it.

* `safeMath_exact` — the operations of `SafeMath` are exact, or they revert
* `mapping_log` — the storage is what the ledger makes of the events; who may cause which event
* `syncState_completes` — a message counts as synced only if its receiver took it, unaltered
-/

namespace BridgeExecutor

open Reentrant

/-! ## `SafeMath` -/

namespace SafeMath

variable {a b c : UInt256}

theorem add_eq_some : add a b = some c ↔ c.toNat = a.toNat + b.toNat := by
  have ha := a.isLt
  have hb := b.isLt
  have hc := c.isLt
  have hsum : (a + b).toNat = (a.toNat + b.toNat) % 2 ^ 256 := BitVec.toNat_add a b
  unfold add
  dsimp only
  by_cases h : a + b ≥ a
  · rw [if_pos h, Option.some.injEq, BitVec.toNat_eq]
    rw [ge_iff_le, BitVec.le_def] at h
    omega
  · rw [if_neg h]
    rw [ge_iff_le, BitVec.le_def] at h
    simp only [reduceCtorEq, false_iff]
    omega

theorem sub_eq_some : sub a b = some c ↔ c.toNat + b.toNat = a.toNat := by
  unfold sub
  by_cases h : b ≤ a
  · have hle : b.toNat ≤ a.toNat := h
    have hsub := BitVec.toNat_sub_of_le h
    rw [if_pos h, Option.some.injEq, BitVec.toNat_eq]
    omega
  · have hlt : a.toNat < b.toNat := Nat.lt_of_not_le h
    rw [if_neg h]
    simp only [reduceCtorEq, false_iff]
    omega

theorem div_eq_some : div a b = some c ↔ 0 < b.toNat ∧ c.toNat = a.toNat / b.toNat := by
  unfold div
  by_cases h : b > 0
  · have hpos : 0 < b.toNat := h
    rw [if_pos h, Option.some.injEq, BitVec.toNat_eq, BitVec.toNat_udiv]
    exact ⟨fun hc => ⟨hpos, hc.symm⟩, fun hc => hc.2.symm⟩
  · have hzero : ¬ 0 < b.toNat := h
    rw [if_neg h]
    simp [hzero]

theorem mod_eq_some : mod a b = some c ↔ b.toNat ≠ 0 ∧ c.toNat = a.toNat % b.toNat := by
  have hzero : b ≠ 0 ↔ b.toNat ≠ 0 := not_congr BitVec.toNat_eq
  unfold mod
  by_cases h : b ≠ 0
  · rw [if_pos h, Option.some.injEq, BitVec.toNat_eq, BitVec.toNat_umod]
    exact ⟨fun hc => ⟨hzero.mp h, hc.symm⟩, fun hc => hc.2.symm⟩
  · rw [if_neg h]
    simp [mt hzero.mpr h]

/-- A product that wraps is too small to be divided back. -/
theorem mul_eq_some : mul a b = some c ↔ c.toNat = a.toNat * b.toNat := by
  have hprod : (a * b).toNat = a.toNat * b.toNat % 2 ^ 256 := BitVec.toNat_mul a b
  unfold mul
  by_cases ha : a = 0
  · subst ha
    rw [if_pos rfl, Option.some.injEq, BitVec.toNat_eq]
    simp [eq_comm]
  rw [if_neg ha]
  dsimp only
  have hpos : 0 < a.toNat := Nat.pos_of_ne_zero fun h0 => ha (BitVec.toNat_eq.mpr h0)
  by_cases h : a * b / a = b
  · -- `a * b` is at most the wrapped product
    have hdiv : (a * b).toNat / a.toNat = b.toNat := by rw [← BitVec.toNat_udiv, h]
    have hle : a.toNat * b.toNat ≤ (a * b).toNat := by
      rw [← hdiv]
      exact Nat.mul_div_le _ _
    have hmod : (a * b).toNat ≤ a.toNat * b.toNat := by
      rw [hprod]
      exact Nat.mod_le _ _
    rw [if_pos h, Option.some.injEq, BitVec.toNat_eq]
    omega
  · rw [if_neg h]
    simp only [reduceCtorEq, false_iff]
    intro hc
    have hlt : a.toNat * b.toNat < 2 ^ 256 := hc ▸ c.isLt
    refine h (BitVec.eq_of_toNat_eq ?_)
    rw [BitVec.toNat_udiv, hprod, Nat.mod_eq_of_lt hlt, Nat.mul_div_cancel_left _ hpos]

end SafeMath

/-- **Every operation of `SafeMath` is that of the natural numbers, or it reverts.** -/
theorem safeMath_exact (a b c : UInt256) :
    (SafeMath.mul a b = some c ↔ c.toNat = a.toNat * b.toNat) ∧
    (SafeMath.div a b = some c ↔ 0 < b.toNat ∧ c.toNat = a.toNat / b.toNat) ∧
    (SafeMath.sub a b = some c ↔ c.toNat + b.toNat = a.toNat) ∧
    (SafeMath.add a b = some c ↔ c.toNat = a.toNat + b.toNat) ∧
    (SafeMath.mod a b = some c ↔ b.toNat ≠ 0 ∧ c.toNat = a.toNat % b.toNat) :=
  ⟨SafeMath.mul_eq_some, SafeMath.div_eq_some, SafeMath.sub_eq_some, SafeMath.add_eq_some,
    SafeMath.mod_eq_some⟩

/-! ## Local moves -/

/-- A contract of the bridge whose functions respect `R` makes local moves. -/
theorem bridge_refines {σ Φ : Type} {this : Address} {entry : Address → Φ → σ → BridgeProgram σ}
    {R : Option (Request Φ) → σ → σ → Prop} {Init : UInt256 → σ → Prop}
    (hentry : ∀ (m : Request Φ) s,
      (entry m.sender m.fn s).Respects (bridgeContract OutCall.target this entry) R (some m) s)
    (hrefl : ∀ s, R none s s) :
    Refines (bridgeContract OutCall.target this entry) Init (Locally R) fun _ _ => True := by
  refine .of_respects (fun t m s => ?_) (fun hd => ?_) hrefl
  · show Prog.Respects _ _ (if m.value ≠ 0 then .fail .rejected else entry m.sender m.fn s) _ _
    split
    · trivial
    · exact hentry m s
  · obtain rfl : _ = _ := hd
    exact hrefl _

/-! ## The ledger of the mapping -/

/-- What a reader of the events knows of the mapping. -/
structure MappingView where
  owner : Address
  counter : UInt256
  registrations : Address → Address

def MappingStorage.view (s : MappingStorage) : MappingView := ⟨s.owner, s.counter, s.registrations⟩

/-- The id that the event gives to a message. -/
def MappingEvent.syncedId : MappingEvent → Option Nat
  | .stateSynced id _ _ => some id.toNat
  | _ => none

namespace MappingView

def setRegistration (v : MappingView) (receiver sender : Address) : MappingView :=
  { v with registrations := Function.update v.registrations receiver sender }

/-- The owner may register anybody, and who is registered may pass it on. -/
def MayRegister (v : MappingView) (user receiver : Address) : Prop :=
  user = v.owner ∨ v.registrations receiver = user

/-- Before the first registration. -/
def fresh (deployer : Address) : MappingView := ⟨deployer, 0, fun _ => 0⟩

end MappingView

/-- The registration that the source calls new is one to the zero address. -/
def mappingLedger : Ledger MappingView MappingEvent where
  accepts v
    | .ownershipTransferred previousOwner _ => previousOwner = v.owner
    | .newRegistration user sender receiver => v.MayRegister user receiver ∧ sender = 0
    | .registrationUpdated user sender receiver => v.MayRegister user receiver ∧ sender ≠ 0
    | .stateSynced id _ _ => id.toNat = v.counter.toNat + 1
  apply v
    | .ownershipTransferred _ newOwner => { v with owner := newOwner }
    | .newRegistration _ sender receiver => v.setRegistration receiver sender
    | .registrationUpdated _ sender receiver => v.setRegistration receiver sender
    | .stateSynced id _ _ => { v with counter := id }

/-- The event is one that the account `user` may cause. -/
def MappingEvent.CausedBy (user : Address) (v : MappingView) : MappingEvent → Prop
  | .ownershipTransferred _ _ => user = v.owner
  | .newRegistration user' _ _ => user' = user
  | .registrationUpdated user' _ _ => user' = user
  | .stateSynced _ contractAddress _ => v.registrations contractAddress = user

/-- One event, by somebody who may cause it. -/
def MappingMove : Option (Request MappingFn) → MappingStorage → MappingStorage → Prop
  | none, s, s' => s' = s
  | some m, s, s' => ∃ e, s'.logs = s.logs ++ [e] ∧ mappingLedger.accepts s.view e ∧
      s'.view = mappingLedger.apply s.view e ∧ e.CausedBy m.sender s.view

namespace CustomPolygonMapping

variable {H : Type} {K : Keccak H} {this : Address}

theorem entry_respects (m : Request MappingFn) (s : MappingStorage) :
    (entry K m.sender m.fn s).Respects (customPolygonMapping K this) MappingMove (some m) s := by
  cases hf : m.fn with
  | renounceOwnership =>
    show Prog.Respects _ _ (onlyOwner m.sender s _) _ _
    unfold onlyOwner
    split
    · next howner => exact ⟨_, rfl, rfl, rfl, howner⟩
    · trivial
  | transferOwnership newOwner =>
    show Prog.Respects _ _ (onlyOwner m.sender s _) _ _
    unfold onlyOwner
    split
    · next howner =>
      split
      · exact ⟨_, rfl, rfl, rfl, howner⟩
      · trivial
    · trivial
  | syncState receiver data =>
    show Prog.Respects _ _ (onlyRegistered m.sender receiver s _) _ _
    unfold onlyRegistered
    split
    · next hreg =>
      cases hadd : SafeMath.add s.counter 1 with
      | none => trivial
      | some counter =>
        refine ⟨⟨_, rfl, SafeMath.add_eq_some.mp hadd, rfl, hreg⟩, rfl, fun s' ok d => ?_⟩
        cases ok with
        | true => exact rfl
        | false => trivial
    · trivial
  | register sender receiver =>
    show Prog.Respects _ _ (register m.sender sender receiver s) _ _
    unfold register
    split
    · next hmay =>
      have hself : (s.setRegistration receiver sender).registrations receiver = sender :=
        Function.update_self ..
      dsimp only
      rw [hself]
      split
      · next hzero => exact ⟨_, rfl, ⟨hmay, hzero⟩, rfl, rfl⟩
      · next hzero => exact ⟨_, rfl, ⟨hmay, hzero⟩, rfl, rfl⟩
    · trivial

/-- A deployment, by anybody at any time. -/
def Deployed (_ : UInt256) (s : MappingStorage) : Prop := ∃ deployer, s = construct deployer

theorem refines (K : Keccak H) (this : Address) :
    Refines (customPolygonMapping K this) Deployed (Locally MappingMove) fun _ _ => True :=
  bridge_refines entry_respects fun _ => rfl

abbrev MappingConfig :=
  Config Address UInt256 (Request MappingFn) MappingStorage OutCall (List UInt8) Revert

abbrev MappingFrame :=
  Frame UInt256 (Request MappingFn) MappingStorage OutCall (List UInt8) Revert

/-- The state sender while it waits for the receiver of a message. -/
def synced (s : MappingStorage) (counter : UInt256) (receiver : Address) (data : Bytes) :
    MappingStorage := (s.setCounter counter).emit (.stateSynced counter receiver data)

/-- The call of `syncState`, under the number `counter`. -/
def syncCall (K : Keccak H) (receiver : Address) (counter : UInt256) (data : Bytes) : OutCall :=
  ⟨false, receiver, 0, (onStateReceiveMethod K).callData (counter, data, ())⟩

/-- What `syncState` does with the answer of the receiver. -/
def afterSync (s : MappingStorage) (success : Bool) (_ : List UInt8) :
    BridgeProgram MappingStorage :=
  if success then .done s () else .fail (.reason "FAILED_ACTION_EXECUTION_CUSTOM_MAPPING")

end CustomPolygonMapping

/-! ## An example run

The owner registers the account 1 for the receiver 3, and the account 1 sends a message.
-/

namespace Example

open CustomPolygonMapping

def mappingKeccak : Keccak Unit where
  hash _ := ()
  bytes4 _ := [0, 0, 0, 0]

abbrev mapping : Contract Address UInt256 (Request MappingFn) MappingStorage OutCall (List UInt8)
    Revert := customPolygonMapping mappingKeccak 2

def registerRequest : Request MappingFn := ⟨9, 0, .register 1 3⟩

def syncRequest : Request MappingFn := ⟨1, 0, .syncState 3 .empty⟩

def registered : MappingStorage :=
  ((construct 9).setRegistration 3 1).emit (.registrationUpdated 9 1 3)

def registeredWorld : World UInt256 (Request MappingFn) MappingStorage :=
  ((World.mk 1000 (construct 9) []).record registerRequest).withState registered

def syncFrame : MappingFrame :=
  ⟨syncRequest, registeredWorld, [], syncCall mappingKeccak 3 1 .empty,
    (registeredWorld.record syncRequest).withState (synced registered 1 3 .empty), afterSync⟩

/-- The receiver has been called. -/
def syncing : MappingConfig := ⟨syncFrame.before, [.frame syncFrame]⟩

theorem reachable_syncing : Reachable mapping Deployed syncing := by
  have hregister : mapping.entry 1000 registerRequest (construct 9) = .done registered () := rfl
  have hsync : mapping.entry 1000 syncRequest registered
      = .call (synced registered 1 3 .empty) (syncCall mappingKeccak 3 1 .empty) afterSync := rfl
  have hdeployed : Deployed 1000 (construct 9) := ⟨9, rfl⟩
  have hregistered : Reachable mapping Deployed ⟨registeredWorld, []⟩ :=
    .step (.init hdeployed) (.callReturns (show (9 : Address) ≠ 2 by decide) hregister)
  exact .step hregistered (.callSuspends (show (1 : Address) ≠ 2 by decide) hsync)

/-- The receiver takes the message. -/
theorem completes_syncing : Completes mapping syncing registeredWorld syncRequest
    [⟨syncCall mappingKeccak 3 1 .empty, true, []⟩] (.ok syncing.world.state)
    ⟨syncing.world, []⟩ :=
  .answerReturns rfl

end Example

/-- The log of `s` starts with the event of the constructor; `es` are the others. -/
structure MappingLogged (s : MappingStorage) (deployer : Address) (es : List MappingEvent) :
    Prop where
  logs : s.logs = .ownershipTransferred 0 deployer :: es
  legal : mappingLedger.Legal (.fresh deployer) es
  view : mappingLedger.replay (.fresh deployer) es = s.view

/-- The ids are 1, 2, 3, … in the order of the events. -/
theorem syncedIds_of_legal {deployer : Address} {es : List MappingEvent}
    (h : mappingLedger.Legal (.fresh deployer) es) : es.filterMap MappingEvent.syncedId
      = List.range' 1 (mappingLedger.replay (.fresh deployer) es).counter.toNat := by
  refine h.history (P := fun es => es.filterMap MappingEvent.syncedId
    = List.range' 1 (mappingLedger.replay (.fresh deployer) es).counter.toNat) rfl ?_
  intro es e _ he ih
  rw [List.filterMap_append, ih, Ledger.replay_concat]
  cases e with
  | stateSynced id contractAddress data =>
    have hid : id.toNat = _ := he
    show _ = List.range' 1 id.toNat
    rw [hid, List.range'_1_concat, Nat.add_comm 1, ← hid]
    rfl
  | _ => exact List.append_nil _

theorem MappingLogged.move {s s' : MappingStorage} {deployer : Address} {es : List MappingEvent}
    (h : MappingLogged s deployer es) {l : Option (Request MappingFn)} (hm : MappingMove l s s') :
    ∃ es', MappingLogged s' deployer es' := by
  cases l with
  | none =>
    obtain rfl : s' = s := hm
    exact ⟨es, h⟩
  | some m =>
    obtain ⟨e, hlogs, haccepts, hview, -⟩ := hm
    rw [← h.view] at haccepts hview
    refine ⟨es ++ [e], ?_, h.legal.concat haccepts, ?_⟩
    · rw [hlogs, h.logs, List.cons_append]
    · rw [Ledger.replay_concat, hview]

/--
**The storage of the state sender is what its events say, whoever is called in between.**

Ownership and registrations change only by an event that its sender may cause; messages get the
ids 1, 2, 3, … without a gap; and `NewRegistration` is emitted for registrations to the zero
address and for no others.
-/
theorem mapping_log {H : Type} {K : Keccak H} {this : Address}
    {c : CustomPolygonMapping.MappingConfig}
    (hc : Reachable (customPolygonMapping K this) CustomPolygonMapping.Deployed c) :
    (∃ deployer es, MappingLogged c.world.state deployer es) ∧
    c.world.state.logs.filterMap MappingEvent.syncedId
      = List.range' 1 c.world.state.counter.toNat ∧
    ∀ a c', Step (customPolygonMapping K this) c a c' → ¬ a.Undoes →
      c'.world.state = c.world.state ∨ ∃ m e, a = .call m ∧
        c'.world.state.logs = c.world.state.logs ++ [e] ∧ e.CausedBy m.sender c.world.state.view ∧
        mappingLedger.accepts c.world.state.view e ∧
        c'.world.state.view = mappingLedger.apply c.world.state.view e := by
  have hrefines := CustomPolygonMapping.refines K this
  obtain ⟨deployer, es, hlogged⟩ := hrefines.local_invariant
    (I := fun s => ∃ deployer es, MappingLogged s deployer es)
    (by
      rintro t s ⟨deployer, rfl⟩
      exact ⟨deployer, [], rfl, trivial, rfl⟩)
    (by
      rintro l s s' hm ⟨deployer, es, h⟩
      obtain ⟨es', h'⟩ := h.move hm
      exact ⟨deployer, es', h'⟩) hc
  refine ⟨⟨deployer, es, hlogged⟩, ?_, fun a c' hs ha => ?_⟩
  · have hids := syncedIds_of_legal hlogged.legal
    rw [hlogged.view] at hids
    rw [hlogged.logs]
    exact hids
  · rcases hrefines.local_step (fun h => h) hc hs ha with heq | ⟨m, rfl, e, hlogs, hacc, hview, hby⟩
    · exact Or.inl heq
    · exact Or.inr ⟨m, e, rfl, hlogs, hby, hacc, hview⟩

/-- While the receiver is called the message has its number. -/
theorem mapping_log_syncing :
    Example.syncing.world.state.logs.filterMap MappingEvent.syncedId = List.range' 1 1 :=
  (mapping_log Example.reachable_syncing).2.1

/-! ## Delivery -/

namespace CustomPolygonMapping

variable {H : Type} {K : Keccak H} {this : Address}

/-- The function behind the dispatch. -/
theorem entry_syncState {mapping sender receiver : Address} {t : UInt256} {data : Bytes}
    (s : MappingStorage) :
    (customPolygonMapping K mapping).entry t ⟨sender, 0, .syncState receiver data⟩ s
      = syncState K sender receiver data s := bridgeContract_entry ..

theorem syncState_of_registered {sender receiver : Address} {data : Bytes} {s : MappingStorage}
    (hreg : s.registrations receiver = sender) {counter : UInt256}
    (hcounter : counter.toNat = s.counter.toNat + 1) : syncState K sender receiver data s
      = .call (synced s counter receiver data) (syncCall K receiver counter data) afterSync := by
  unfold syncState onlyRegistered
  rw [if_pos hreg, show SafeMath.add s.counter 1 = some counter from
    SafeMath.add_eq_some.mpr hcounter]
  rfl

/-- A registered sender gets as far as the call, unless the counter overflows. -/
theorem syncState_eq (sender receiver : Address) (data : Bytes) (s : MappingStorage) :
    (∃ e, syncState K sender receiver data s = .fail e) ∨
    ∃ counter, s.registrations receiver = sender ∧ counter.toNat = s.counter.toNat + 1 ∧
      syncState K sender receiver data s
        = .call (synced s counter receiver data) (syncCall K receiver counter data) afterSync := by
  by_cases hreg : s.registrations receiver = sender
  · cases hadd : SafeMath.add s.counter 1 with
    | none =>
      refine Or.inl ⟨.require, ?_⟩
      unfold syncState onlyRegistered
      rw [if_pos hreg, hadd]
    | some counter =>
      have hcounter : counter.toNat = s.counter.toNat + 1 := SafeMath.add_eq_some.mp hadd
      exact Or.inr ⟨counter, hreg, hcounter, syncState_of_registered hreg hcounter⟩
  · exact Or.inl ⟨_, if_neg hreg⟩

/-- `syncState` against a known receiver. -/
theorem run_syncState {ρ : Type} {h : MappingStorage → OutCall → ρ → Bool × List UInt8 × ρ}
    {sender receiver : Address} {data : Bytes} {s s' : MappingStorage} {r r' : ρ} :
    (syncState K sender receiver data s).run h r = .ok (s', (), r') ↔
      s.registrations receiver = sender ∧ ∃ counter, counter.toNat = s.counter.toNat + 1 ∧
        s' = synced s counter receiver data ∧
        ∃ d, h s' (syncCall K receiver counter data) r = (true, d, r') := by
  constructor
  · intro hrun
    rcases syncState_eq (K := K) sender receiver data s with ⟨e, he⟩ | ⟨counter, hreg, hcounter, he⟩
    · rw [he] at hrun
      cases hrun
    · rcases hq : h (synced s counter receiver data) (syncCall K receiver counter data) r with
        ⟨ok, d, r₁⟩
      rw [he, Prog.run_call hq] at hrun
      cases ok with
      | true =>
        cases hrun
        exact ⟨hreg, counter, hcounter, rfl, d, hq⟩
      | false => cases hrun
  · rintro ⟨hreg, counter, hcounter, rfl, d, hq⟩
    rw [syncState_of_registered hreg hcounter, Prog.run_call hq]
    rfl

/-- A frame of the mapping waits for the receiver of one message. -/
structure Relaying (K : Keccak H) (receiver : Address) (data : Bytes) (f : MappingFrame) :
    Prop where
  registered : f.entry.state.registrations receiver = f.msg.sender
  issued : f.issued = []
  pending : ∃ counter, counter.toNat = f.entry.state.counter.toNat + 1 ∧
    f.pending = syncCall K receiver counter data
  k : f.k = afterSync

/-- The entry of the mapping calls out in `syncState` only. -/
theorem entry_eq_call {m : Request MappingFn} {s s' : MappingStorage} {q : OutCall}
    {k : MappingStorage → Bool → List UInt8 → BridgeProgram MappingStorage} {t : UInt256}
    (h : (customPolygonMapping K this).entry t m s = .call s' q k) :
    ∃ receiver data counter, m.fn = .syncState receiver data ∧
      s.registrations receiver = m.sender ∧ counter.toNat = s.counter.toNat + 1 ∧
      q = syncCall K receiver counter data ∧ k = afterSync := by
  have h' : (if m.value ≠ 0 then .fail .rejected else entry K m.sender m.fn s) = .call s' q k := h
  split at h'
  · cases h'
  cases hf : m.fn with
  | syncState receiver data =>
    rw [hf] at h'
    have h'' : syncState K m.sender receiver data s = .call s' q k := h'
    rcases syncState_eq (K := K) m.sender receiver data s with
      ⟨e, he⟩ | ⟨counter, hreg, hcounter, he⟩
    · rw [he] at h''
      cases h''
    · rw [he] at h''
      cases h''
      exact ⟨receiver, data, counter, rfl, hreg, hcounter, rfl, rfl⟩
  | renounceOwnership =>
    rw [hf] at h'
    have h'' : onlyOwner m.sender s _ = .call s' q k := h'
    unfold onlyOwner at h''
    split at h'' <;> cases h''
  | transferOwnership newOwner =>
    rw [hf] at h'
    have h'' : onlyOwner m.sender s _ = .call s' q k := h'
    unfold onlyOwner at h''
    split at h''
    · split at h'' <;> cases h''
    · cases h''
  | register sender receiver =>
    rw [hf] at h'
    have h'' : register m.sender sender receiver s = .call s' q k := h'
    unfold register at h''
    split at h''
    · dsimp only at h''
      split at h'' <;> cases h''
    · cases h''

theorem relaying_of_reachable
    {c : MappingConfig}
    (hc : Reachable (customPolygonMapping K this) Deployed c) : ∀ f, Level.frame f ∈ c.stack →
      ∃ receiver data, f.msg.fn = .syncState receiver data ∧ Relaying K receiver data f := by
  refine (refines K this).frames (fun _ he => ?_) (fun _ hf he => ?_) hc
  · obtain ⟨receiver, data, counter, hf, hreg, hcounter, hq, hk⟩ := entry_eq_call he
    exact ⟨receiver, data, hf, hreg, rfl, ⟨counter, hcounter, hq⟩, hk⟩
  · -- the answer ends the frame
    obtain ⟨receiver, data, -, hrelaying⟩ := hf
    rw [hrelaying.k, afterSync] at he
    split at he <;> cases he

end CustomPolygonMapping

open CustomPolygonMapping in
/--
**A message is synced if its receiver takes it, and otherwise nothing has happened.**

When `syncState` returns, it has made one call, to the receiver, with the message as it was handed
in and the next number, and the call has succeeded.
-/
theorem syncState_completes {H : Type} {K : Keccak H} {this : Address}
    {c c' : MappingConfig}
    (hc : Reachable (customPolygonMapping K this) Deployed c)
    {w : World UInt256 (Request MappingFn) MappingStorage} {m : Request MappingFn}
    {tr : List (Exchange OutCall (List UInt8))} {out : Except Revert MappingStorage}
    (h : Completes (customPolygonMapping K this) c w m tr out c') {receiver : Address}
    {data : Bytes} (hf : m.fn = .syncState receiver data) :
    (∀ s, out = .ok s → w.state.registrations receiver = m.sender ∧
      ∃ counter d, counter.toNat = w.state.counter.toNat + 1 ∧
        tr = [⟨syncCall K receiver counter data, true, d⟩]) ∧
    (∀ e, out = .error e → c'.world = w) := by
  cases h with
  | @returns w st _ s hm he =>
    -- `syncState` never returns without a call
    have he' : (if m.value ≠ 0 then .fail .rejected else entry K m.sender m.fn w.state)
        = .done s () := he
    rw [hf] at he'
    split at he'
    · cases he'
    have he'' : syncState K m.sender receiver data w.state = .done s () := he'
    rcases syncState_eq (K := K) m.sender receiver data w.state with
      ⟨e, heq⟩ | ⟨counter, -, -, heq⟩
    · rw [heq] at he''
      cases he''
    · rw [heq] at he''
      cases he''
  | reverts hm he => exact ⟨nofun, fun _ _ => rfl⟩
  | @answerReturns w f st ok d s he =>
    obtain ⟨receiver', data', hf', hrelaying⟩ := relaying_of_reachable hc f List.mem_cons_self
    cases hf.symm.trans hf'
    refine ⟨fun _ _ => ⟨hrelaying.registered, ?_⟩, nofun⟩
    obtain ⟨counter, hcounter, hpending⟩ := hrelaying.pending
    rw [hrelaying.k, afterSync] at he
    cases ok with
    | true => exact ⟨counter, d, hcounter, by rw [hrelaying.issued, hpending]; rfl⟩
    | false => cases he
  | answerReverts he => exact ⟨nofun, fun _ _ => rfl⟩

/-- The receiver of the example run takes its message. -/
theorem syncState_completes_syncing :
    Example.registeredWorld.state.registrations 3 = 1 ∧ ∃ (counter : UInt256) (d : List UInt8),
      counter.toNat = Example.registeredWorld.state.counter.toNat + 1 ∧
      [⟨CustomPolygonMapping.syncCall Example.mappingKeccak 3 1 .empty, true, []⟩]
        = [Exchange.mk (CustomPolygonMapping.syncCall Example.mappingKeccak 3 counter .empty)
          true d] :=
  (syncState_completes Example.reachable_syncing Example.completes_syncing rfl).1 _ rfl

end BridgeExecutor

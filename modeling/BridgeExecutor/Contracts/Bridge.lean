import BridgeExecutor.Contracts.BridgeExecutorBase
import BridgeExecutor.Contracts.Encoding
import BridgeExecutor.Reentrant.Local

/-!
# Contracts that pass messages on

What the contracts between the two chains have in common.  Each of them is a function from its
storage to a `Prog`, and a `Contract` for the machine.  None of them takes ether, and none cares
about the ether it is sent.

`answers` makes such a contract the callee of another one, so that the contracts of a bridge can
be linked up and a message be followed from one end to the other.  Some of them limit the gas of
a call; `limited` lets such a call fail if the callee does not get by with it.

* `answers_eq` — a call comes back with success if the function it names returns
* `limited_eq` — the same for a call with a limit
-/

namespace BridgeExecutor

open Reentrant

/-- How the contracts of the bridges revert. -/
inductive Revert where
  /-- `require` without a message. -/
  | require
  /-- `require` with a message. -/
  | reason (message : String)
  /-- The revert data of a callee, passed on. -/
  | bubbled (data : List UInt8)
  /-- A check the compiler puts in. -/
  | rejected
deriving DecidableEq

/-- A call to a contract of a bridge. -/
structure Request (Φ : Type) where
  sender : Address
  value : UInt256
  fn : Φ

/-- A call with a limit on its gas, or without one. -/
structure GasCall extends OutCall where
  gas : Option Nat
deriving DecidableEq, Repr

/-- A program of a contract with the storage `σ`. -/
abbrev BridgeProgram (σ : Type) := Prog σ OutCall (List UInt8) Revert Unit

/-- The same for a contract that limits the gas of its calls. -/
abbrev GasProgram (σ : Type) := Prog σ GasCall (List UInt8) Revert Unit

/-- A contract none of whose functions is payable.  `target` says which code a call runs. -/
def bridgeContract {σ Φ ω : Type} (target : ω → Address) (this : Address)
    (entry : Address → Φ → σ → Prog σ ω (List UInt8) Revert Unit) :
    Contract Address UInt256 (Request Φ) σ ω (List UInt8) Revert where
  this := this
  sender m := m.sender
  entry _ m s := if m.value ≠ 0 then .fail .rejected else entry m.sender m.fn s
  issue _ s := s
  runsAt q := target q
  drifts _ s s' := s' = s

theorem bridgeContract_entry {σ Φ ω : Type} (target : ω → Address) (this : Address)
    (entry : Address → Φ → σ → Prog σ ω (List UInt8) Revert Unit) (t : UInt256)
    (sender : Address) (fn : Φ) (s : σ) :
    (bridgeContract target this entry).entry t ⟨sender, 0, fn⟩ s = entry sender fn s := by
  show (if (0 : UInt256) ≠ 0 then .fail .rejected else entry sender fn s) = _
  exact if_neg (not_not.mpr rfl)

/-- A call whose failure is passed on, with what the callee has reverted with. -/
def passOn {σ ω : Type} (s : σ) (q : ω) : Prog σ ω (List UInt8) Revert Unit :=
  .call s q fun s' success returnData =>
    if success then .done s' () else .fail (.bubbled returnData)

/-- A call of another contract's function.  The check of the compiler that there is code at the
target is the target's part here: an account without code is one that does not answer with
success. -/
def callOut {σ : Type} (s : σ) (target : Address) (callData : List UInt8) : BridgeProgram σ :=
  passOn s ⟨false, target, 0, callData⟩

/-! ## Linking -/

section

variable {σ ρ ε α : Type}

theorem run_passOn {ω : Type} {h : σ → ω → ρ → Bool × List UInt8 × ρ} {s s' : σ} {q : ω}
    {r r' : ρ} : (passOn s q).run h r = .ok (s', (), r') ↔
      s' = s ∧ ∃ d, h s q r = (true, d, r') := by
  unfold passOn
  rcases hq : h s q r with ⟨ok, d, r₁⟩
  rw [Prog.run_call hq]
  cases ok with
  | true =>
    constructor
    · rintro ⟨⟩
      exact ⟨rfl, d, rfl⟩
    · rintro ⟨rfl, d', h'⟩
      cases h'
      rfl
  | false =>
    constructor
    · rintro ⟨⟩
    · rintro ⟨-, d', h'⟩
      cases h'

/-- A function that only calls out is served if the callee succeeds. -/
theorem serves_passOn {Φ ω : Type} {target : ω → Address} {this : Address}
    {entry : Address → Φ → σ → Prog σ ω (List UInt8) Revert Unit} {t : UInt256} {m : Request Φ}
    {s s' : σ} {q : ω} (hentry : (bridgeContract target this entry).entry t m s = passOn s' q) :
    (bridgeContract target this entry).Serves t m s s' := by
  have hrun : ((bridgeContract target this entry).entry t m s).run
      (fun _ _ _ => (true, [], ())) () = .ok (s', (), ()) := by
    rw [hentry, run_passOn]
    exact ⟨rfl, [], rfl⟩
  exact .of_run (fun _ _ => rfl) hrun

/-- Callees that do not get by with the gas they are given fail, without any data. -/
def limited (enoughGas : OutCall → Nat → Bool) (callees : OutCall → ρ → Bool × List UInt8 × ρ)
    (q : GasCall) (r : ρ) : Bool × List UInt8 × ρ :=
  if q.gas.all (enoughGas q.toOutCall) then callees q.toOutCall r else (false, [], r)

/-- **When a call with a limit comes back with success.** -/
theorem limited_eq {enoughGas : OutCall → Nat → Bool}
    {callees : OutCall → ρ → Bool × List UInt8 × ρ} {q : GasCall} {r r' : ρ} :
    (∃ d, limited enoughGas callees q r = (true, d, r')) ↔
      q.gas.all (enoughGas q.toOutCall) = true ∧ ∃ d, callees q.toOutCall r = (true, d, r') := by
  unfold limited
  split
  · next henough => exact (and_iff_right henough).symm
  · next hshort =>
    constructor
    · rintro ⟨d, h⟩
      cases h
    · rintro ⟨henough, -⟩
      exact absurd henough hshort

/--
The contract at `self` answers the calls of one of its functions.

Of a call that is accepted `s` and `r` are the storage of the contract and that of its callees;
`revertData` is what an error looks like from outside.  Other functions are not there to be
called, and `elsewhere` is how the other accounts answer.
-/
def answers {ω : Type} (elsewhere : OutCall → Bool × List UInt8) (self : Address)
    (method : Abi.Method α) (revertData : ε → List UInt8)
    (callees : σ → ω → ρ → Bool × List UInt8 × ρ)
    (entry : UInt256 → α → σ → Prog σ ω (List UInt8) ε Unit) (q : OutCall) (w : σ × ρ) :
    Bool × List UInt8 × (σ × ρ) :=
  if q.target = self then
    match method.decode q.callData with
    | none => (false, [], w)
    | some x =>
      match (entry q.value x w.1).run callees w.2 with
      | .ok (s, _, r) => (true, [], s, r)
      | .error e => (false, revertData e, w)
  else ((elsewhere q).1, (elsewhere q).2, w)

/-- **When a call to the function comes back with success.** -/
theorem answers_eq {ω : Type} {elsewhere : OutCall → Bool × List UInt8} {self : Address}
    {method : Abi.Method α} {revertData : ε → List UInt8}
    {callees : σ → ω → ρ → Bool × List UInt8 × ρ}
    {entry : UInt256 → α → σ → Prog σ ω (List UInt8) ε Unit} {value : UInt256}
    {callData : List UInt8} {x : α} (hx : method.decode callData = some x) {w w' : σ × ρ} :
    (∃ d, answers elsewhere self method revertData callees entry ⟨false, self, value, callData⟩ w
      = (true, d, w')) ↔ (entry value x w.1).run callees w.2 = .ok (w'.1, (), w'.2) := by
  unfold answers
  rw [if_pos rfl, hx]
  dsimp only
  cases hrun : (entry value x w.1).run callees w.2 with
  | error e => exact ⟨by rintro ⟨d, ⟨⟩⟩, nofun⟩
  | ok out =>
    obtain ⟨s, ⟨⟩, r⟩ := out
    constructor
    · rintro ⟨d, ⟨⟩⟩
      rfl
    · rintro ⟨⟩
      exact ⟨_, rfl⟩

end

end BridgeExecutor

import BridgeExecutor.Reentrant.Prog
import Mathlib.Logic.Relation

/-!
# A contract among other code

The contract's functions are `Prog`s.  Everything else is **outside code**: it calls the
contract, is called by it, calls other outside code, and may revert any of its own frames.

The machine keeps the stack of open frames.  A frame stores what its reverting restores, so
rollback is a step like any other.

## The world and its journal

Next to the contract's state the `World` carries the `journal`: the calls to the contract that
were accepted and that no revert has undone since.  It is restored together with the state, so
it is the committed history as seen from the running code.

## Who may call

`MayCall` is the rule for the sender of a call: outside a transaction anybody but the contract,
inside one exactly the address whose code is running.  Code runs at the contract's own address
only when the contract calls itself or lends its context to other code (`runsAt`).
-/

namespace Reentrant

variable {A τ μ σ ω β ε : Type}

/--
A contract: its address, the sender of a message, what a message does, what issuing a call does
to the state before the callee runs, at which address the callee runs, and what code running at
an address can do to the state without calling the contract.
-/
structure Contract (A τ μ σ ω β ε : Type) where
  this : A
  sender : μ → A
  entry : τ → μ → σ → Prog σ ω β ε Unit
  issue : ω → σ → σ
  runsAt : ω → A
  drifts : A → σ → σ → Prop

/-- An accepted call: when, which, and on which state. -/
structure Record (τ μ σ : Type) where
  now : τ
  msg : μ
  pre : σ

structure World (τ μ σ : Type) where
  now : τ
  state : σ
  journal : List (Record τ μ σ)

namespace World

def withState (w : World τ μ σ) (s : σ) : World τ μ σ := { w with state := s }

/-- Write the call down in the journal. -/
def record (w : World τ μ σ) (m : μ) : World τ μ σ :=
  { w with journal := w.journal ++ [⟨w.now, m, w.state⟩] }

@[simp] theorem withState_now (w : World τ μ σ) (s : σ) : (w.withState s).now = w.now := rfl
@[simp] theorem withState_state (w : World τ μ σ) (s : σ) : (w.withState s).state = s := rfl
@[simp] theorem withState_journal (w : World τ μ σ) (s : σ) :
    (w.withState s).journal = w.journal := rfl
@[simp] theorem withState_withState (w : World τ μ σ) (s s' : σ) :
    (w.withState s).withState s' = w.withState s' := rfl
@[simp] theorem withState_self (w : World τ μ σ) : w.withState w.state = w := rfl
@[simp] theorem record_now (w : World τ μ σ) (m : μ) : (w.record m).now = w.now := rfl
@[simp] theorem record_state (w : World τ μ σ) (m : μ) : (w.record m).state = w.state := rfl
@[simp] theorem record_journal (w : World τ μ σ) (m : μ) :
    (w.record m).journal = w.journal ++ [⟨w.now, m, w.state⟩] := rfl

end World

/--
A frame of the contract waiting for the answer to a call it issued.

`entry` is the world its reverting restores, `before` the world the failing of the pending call
restores, `issued` the calls of this frame that were answered so far.
-/
structure Frame (τ μ σ ω β ε : Type) where
  msg : μ
  entry : World τ μ σ
  issued : List (Exchange ω β)
  pending : ω
  before : World τ μ σ
  k : σ → Bool → β → Prog σ ω β ε Unit

/-- What is on the stack: a waiting frame of the contract, or a frame of outside code. -/
inductive Level (A τ μ σ ω β ε : Type) where
  | frame (f : Frame τ μ σ ω β ε)
  | outside (self : A) (saved : World τ μ σ)

/-- An open frame as its callees see it: the message, the calls answered so far, and the world
in which the pending call was issued. -/
structure Open (τ μ σ : Type) where
  msg : μ
  answered : Nat
  world : World τ μ σ

structure Config (A τ μ σ ω β ε : Type) where
  world : World τ μ σ
  stack : List (Level A τ μ σ ω β ε)

namespace Frame

def toOpen (f : Frame τ μ σ ω β ε) : Open τ μ σ := ⟨f.msg, f.issued.length, f.before⟩

/-- The world a waiting frame goes on in: a failed call has undone its effects. -/
def resumed (f : Frame τ μ σ ω β ε) (w : World τ μ σ) : Bool → World τ μ σ
  | true => w
  | false => f.before

/-- The frame after the pending call was answered and the next one was issued. -/
def next (f : Frame τ μ σ ω β ε) (ok : Bool) (d : β) (w : World τ μ σ) (q : ω)
    (k : σ → Bool → β → Prog σ ω β ε Unit) : Frame τ μ σ ω β ε :=
  { f with issued := f.issued ++ [⟨f.pending, ok, d⟩], pending := q, before := w, k := k }

@[simp] theorem resumed_true (f : Frame τ μ σ ω β ε) (w : World τ μ σ) :
    f.resumed w true = w := rfl
@[simp] theorem resumed_false (f : Frame τ μ σ ω β ε) (w : World τ μ σ) :
    f.resumed w false = f.before := rfl

end Frame

/-- The open frames of a stack, innermost first. -/
def opens : List (Level A τ μ σ ω β ε) → List (Open τ μ σ)
  | [] => []
  | .frame f :: st => f.toOpen :: opens st
  | .outside _ _ :: st => opens st

@[simp] theorem opens_nil : opens ([] : List (Level A τ μ σ ω β ε)) = [] := rfl
@[simp] theorem opens_frame (f : Frame τ μ σ ω β ε) (st : List (Level A τ μ σ ω β ε)) :
    opens (.frame f :: st) = f.toOpen :: opens st := rfl
@[simp] theorem opens_outside (a : A) (w : World τ μ σ) (st : List (Level A τ μ σ ω β ε)) :
    opens (.outside a w :: st) = opens st := rfl

namespace Contract

variable (C : Contract A τ μ σ ω β ε)

/-- The address whose code is running. -/
def self : Level A τ μ σ ω β ε → A
  | .frame f => C.runsAt f.pending
  | .outside a _ => a

def MayCall : List (Level A τ μ σ ω β ε) → A → Prop
  | [], a => a ≠ C.this
  | l :: _, a => a = C.self l

end Contract

/-! ## Steps -/

/-- What a step does, as far as it is seen from outside. -/
inductive Act (A μ β ε : Type) where
  | call (m : μ)
  | reject (m : μ) (e : ε)
  | resume (ok : Bool) (d : β)
  | abort (ok : Bool) (d : β) (e : ε)
  | enterOutside (a : A)
  | leaveOutside
  | revertOutside
  | drift
  | advance

/-- The step takes back something: a callee's effects, a frame of the contract, or a frame of
outside code. -/
def Act.Undoes : Act A μ β ε → Prop
  | .resume ok _ => ok = false
  | .abort _ _ _ => True
  | .revertOutside => True
  | _ => False

section

variable [LE τ] (C : Contract A τ μ σ ω β ε)

inductive Step : Config A τ μ σ ω β ε → Act A μ β ε → Config A τ μ σ ω β ε → Prop where
  -- a call to the contract: it returns, it calls out, or it reverts
  | callReturns {w st m s} : C.MayCall st (C.sender m) →
      C.entry w.now m w.state = .done s () →
      Step ⟨w, st⟩ (.call m) ⟨(w.record m).withState s, st⟩
  | callSuspends {w st m s q k} : C.MayCall st (C.sender m) →
      C.entry w.now m w.state = .call s q k →
      Step ⟨w, st⟩ (.call m)
        ⟨(w.record m).withState (C.issue q s),
          .frame ⟨m, w, [], q, (w.record m).withState s, k⟩ :: st⟩
  | callReverts {w st m e} : C.MayCall st (C.sender m) →
      C.entry w.now m w.state = .fail e →
      Step ⟨w, st⟩ (.reject m e) ⟨w, st⟩
  -- the answer to a pending call
  | answerReturns {w f st ok d s} :
      f.k (f.resumed w ok).state ok d = .done s () →
      Step ⟨w, .frame f :: st⟩ (.resume ok d) ⟨(f.resumed w ok).withState s, st⟩
  | answerSuspends {w f st ok d s q k} :
      f.k (f.resumed w ok).state ok d = .call s q k →
      Step ⟨w, .frame f :: st⟩ (.resume ok d)
        ⟨(f.resumed w ok).withState (C.issue q s),
          .frame (f.next ok d ((f.resumed w ok).withState s) q k) :: st⟩
  | answerReverts {w f st ok d e} :
      f.k (f.resumed w ok).state ok d = .fail e →
      Step ⟨w, .frame f :: st⟩ (.abort ok d e) ⟨f.entry, st⟩
  -- outside code calls other outside code, or lends it its own context
  | enterOutside {w st a} : a ≠ C.this ∨ C.MayCall st a →
      Step ⟨w, st⟩ (.enterOutside a) ⟨w, .outside a w :: st⟩
  | leaveOutside {w st a saved} : Step ⟨w, .outside a saved :: st⟩ .leaveOutside ⟨w, st⟩
  | revertOutside {w st a saved} :
      Step ⟨w, .outside a saved :: st⟩ .revertOutside ⟨saved, st⟩
  | drift {w st l s} : C.drifts (C.self l) w.state s →
      Step ⟨w, l :: st⟩ .drift ⟨w.withState s, l :: st⟩
  -- time passes between transactions only
  | advance {w t} : w.now ≤ t → Step ⟨w, []⟩ .advance ⟨{ w with now := t }, []⟩

variable {C} in
/-- A call that reverts is not accepted. -/
theorem Step.not_call {c c' : Config A τ μ σ ω β ε} {m : μ} {e : ε}
    (he : C.entry c.world.now m c.world.state = .fail e) : ¬ Step C c (.call m) c' := by
  intro h
  cases h with
  | callReturns _ h => exact nomatch he.symm.trans h
  | callSuspends _ h => exact nomatch he.symm.trans h

/-- The configurations of the runs that start right after a construction. -/
inductive Reachable (Init : τ → σ → Prop) : Config A τ μ σ ω β ε → Prop where
  | init {t s} : Init t s → Reachable Init ⟨⟨t, s, []⟩, []⟩
  | step {c a c'} : Reachable Init c → Step C c a c' → Reachable Init c'

variable {C} in
/-- Runs that start in fewer states. -/
theorem Reachable.mono {Init Init' : τ → σ → Prop} (h : ∀ t s, Init t s → Init' t s)
    {c : Config A τ μ σ ω β ε} (hc : Reachable C Init c) : Reachable C Init' c := by
  induction hc with
  | init hs => exact .init (h _ _ hs)
  | step _ hs ih => exact .step ih hs

/-- Any number of steps. -/
def Steps : Config A τ μ σ ω β ε → Config A τ μ σ ω β ε → Prop :=
  Relation.ReflTransGen fun c c' => ∃ a, Step C c a c'

end

end Reentrant

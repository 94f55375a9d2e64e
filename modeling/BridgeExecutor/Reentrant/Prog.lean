import Mathlib.Data.List.Basic

/-!
# Programs that call out

A function of a contract runs on the contract's own state, and from time to time it hands
control to code it knows nothing about.
`Prog` is such a function cut at its outgoing calls: it finishes, it reverts, or it issues a
call and goes on from **whatever state** the callee leaves behind.

`Prog.bind` is sequencing and `Prog.ofExcept` embeds a function that makes no call at all.
-/

namespace Reentrant

/--
A program over the state `σ`, issuing calls `ω` that are answered with data `β`,
reverting with errors `ε` and returning an `α`.
-/
inductive Prog (σ ω β ε α : Type) where
  | done (s : σ) (a : α)
  | fail (e : ε)
  | call (s : σ) (q : ω) (k : σ → Bool → β → Prog σ ω β ε α)

/-- An outgoing call together with its answer. -/
structure Exchange (ω β : Type) where
  call : ω
  success : Bool
  data : β
deriving DecidableEq, Repr

variable {σ ω β ε α γ : Type}

namespace Prog

/-- Run `p`, then `f` on its final state and result. -/
def bind : Prog σ ω β ε α → (σ → α → Prog σ ω β ε γ) → Prog σ ω β ε γ
  | done s a, f => f s a
  | fail e, _ => fail e
  | call s q k, f => call s q fun s' ok d => (k s' ok d).bind f

@[simp] theorem bind_done (s : σ) (a : α) (f : σ → α → Prog σ ω β ε γ) :
    (done s a : Prog σ ω β ε α).bind f = f s a := rfl

@[simp] theorem bind_fail (e : ε) (f : σ → α → Prog σ ω β ε γ) :
    (fail e : Prog σ ω β ε α).bind f = fail e := rfl

@[simp] theorem bind_call (s : σ) (q : ω) (k : σ → Bool → β → Prog σ ω β ε α)
    (f : σ → α → Prog σ ω β ε γ) :
    (call s q k).bind f = call s q fun s' ok d => (k s' ok d).bind f := rfl

/-- A function that makes no outgoing call. -/
def ofExcept : Except ε σ → Prog σ ω β ε Unit
  | .ok s => done s ()
  | .error e => fail e

@[simp] theorem ofExcept_ok (s : σ) : (ofExcept (.ok s) : Prog σ ω β ε Unit) = done s () := rfl

@[simp] theorem ofExcept_error (e : ε) :
    (ofExcept (.error e) : Prog σ ω β ε Unit) = fail e := rfl

end Prog

end Reentrant

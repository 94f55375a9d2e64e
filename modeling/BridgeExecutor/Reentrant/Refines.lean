import BridgeExecutor.Reentrant.Machine

/-!
# Refining a transition relation

What a contract does between two outgoing calls is one **move**.
A move relation `T` is an abstract description of the contract: `T l ctx w ctx' w'` leads from the
world `w` with the frames `ctx` open to `w'` with `ctx'` open, and `l` is the message that is
accepted, if the move starts a call.

`Refines C Init T J` says that the code of `C` makes only moves of `T`, where `J` is what a
callee leaves intact (the rely of the frames that wait for it).

* `Refines.invariant` — what every move keeps holds in every reachable configuration, whatever
  is re-entered or reverted
-/

namespace Reentrant

variable {A τ μ σ ω β ε : Type}

/-- A labelled move from one world and its open frames to the next. -/
abbrev MoveRel (τ μ σ : Type) :=
  Option μ → List (Open τ μ σ) → World τ μ σ → List (Open τ μ σ) → World τ μ σ → Prop

/-- A property of a world and the frames that are open in it. -/
abbrev CtxProp (τ μ σ : Type) := List (Open τ μ σ) → World τ μ σ → Prop

/--
The rest `p` of a frame with message `m`, opened over `ctx`, makes only moves of `T`.

`cur` and `w` are the open frames and the world at the start of the move, `l` is its label,
`base` the world whose journal the move ends with, `n` the number of calls answered so far.
-/
def Prog.Follows (C : Contract A τ μ σ ω β ε) (T : MoveRel τ μ σ) (J : CtxProp τ μ σ)
    (ctx : List (Open τ μ σ)) (m : μ) :
    Prog σ ω β ε Unit → Option μ → Nat → List (Open τ μ σ) → World τ μ σ → World τ μ σ → Prop
  | .done s _, l, _, cur, w, base => T l cur w ctx (base.withState s)
  | .fail _, _, _, _, _, _ => True
  | .call s q k, l, n, cur, w, base =>
    T l cur w (⟨m, n, base.withState s⟩ :: ctx) (base.withState s) ∧
    T none (⟨m, n, base.withState s⟩ :: ctx) (base.withState s)
      (⟨m, n, base.withState s⟩ :: ctx) (base.withState (C.issue q s)) ∧
    ∀ w' ok d, J (⟨m, n, base.withState s⟩ :: ctx) w' →
      Follows C T J ctx m (k w'.state ok d) none (n + 1) (⟨m, n, base.withState s⟩ :: ctx) w' w'

section

variable [LE τ]

/-- `C`, started in `Init`, makes only moves of `T`, relying on `J`. -/
structure Refines (C : Contract A τ μ σ ω β ε) (Init : τ → σ → Prop) (T : MoveRel τ μ σ)
    (J : CtxProp τ μ σ) : Prop where
  init : ∀ {t s}, Init t s → J [] ⟨t, s, []⟩
  keep : ∀ {l ctx w ctx' w'}, T l ctx w ctx' w' → J ctx w → J ctx' w'
  call : ∀ {ctx w m}, J ctx w → (C.sender m = C.this → ctx ≠ []) →
    (C.entry w.now m w.state).Follows C T J ctx m (some m) 0 ctx w (w.record m)
  drift : ∀ {ctx w a s}, J ctx w → (a = C.this → ctx ≠ []) → C.drifts a w.state s →
    T none ctx w ctx (w.withState s)
  advance : ∀ {w t}, J [] w → w.now ≤ t → T none [] w [] { w with now := t }

end

variable {C : Contract A τ μ σ ω β ε} {Init : τ → σ → Prop} {T : MoveRel τ μ σ}
  {J I : CtxProp τ μ σ}

/-- A stronger rely asks less of the program. -/
theorem Prog.Follows.mono (hJ : ∀ ctx w, I ctx w → J ctx w) {ctx : List (Open τ μ σ)} {m : μ} :
    ∀ {p : Prog σ ω β ε Unit} {l : Option μ} {n : Nat} {cur : List (Open τ μ σ)}
      {w base : World τ μ σ}, p.Follows C T J ctx m l n cur w base →
      p.Follows C T I ctx m l n cur w base
  | .done _ _, _, _, _, _, _, h => h
  | .fail _, _, _, _, _, _, _ => trivial
  | .call _ _ _, _, _, _, _, _, ⟨h1, h2, h3⟩ =>
    ⟨h1, h2, fun w' ok d hw => (h3 w' ok d (hJ _ _ hw)).mono hJ⟩

/-! ## The stack of a reachable configuration -/

/--
Every world that a revert may bring back satisfies `J` with the frames that will then be open,
and every waiting frame goes on by moves of `T`.
-/
def StackOk (C : Contract A τ μ σ ω β ε) (T : MoveRel τ μ σ) (J : CtxProp τ μ σ) :
    List (Level A τ μ σ ω β ε) → Prop
  | [] => True
  | .frame f :: st =>
    J (opens st) f.entry ∧ J (f.toOpen :: opens st) f.before ∧
    (∀ w ok d, J (f.toOpen :: opens st) w →
      (f.k w.state ok d).Follows C T J (opens st) f.msg none (f.issued.length + 1)
        (f.toOpen :: opens st) w w) ∧
    StackOk C T J st
  | .outside a saved :: st =>
    (a = C.this → opens st ≠ []) ∧ J (opens st) saved ∧ StackOk C T J st

/-- Code runs at the contract's own address only above one of its frames. -/
theorem StackOk.opens_ne_nil : ∀ {st : List (Level A τ μ σ ω β ε)}, StackOk C T J st →
    C.MayCall st C.this → opens st ≠ []
  | [], _, h => absurd rfl h
  | .frame _ :: _, _, _ => by simp
  | .outside a _ :: st, hst, h => hst.1 h.symm

theorem StackOk.sender {st : List (Level A τ μ σ ω β ε)} (hst : StackOk C T J st) {a : A}
    (ha : C.MayCall st a) : a = C.this → opens st ≠ [] := by
  rintro rfl
  exact hst.opens_ne_nil ha

/-- The world a waiting frame goes on in satisfies the rely of that frame. -/
theorem StackOk.resumed {f : Frame τ μ σ ω β ε} {st : List (Level A τ μ σ ω β ε)}
    (hst : StackOk C T J (.frame f :: st)) {w : World τ μ σ} (hw : J (f.toOpen :: opens st) w)
    (ok : Bool) : J (f.toOpen :: opens st) (f.resumed w ok) := by
  cases ok with
  | true => exact hw
  | false => exact hst.2.1

/-- The moves of a resumed frame, up to its next call or its end. -/
theorem StackOk.answered {f : Frame τ μ σ ω β ε} {st : List (Level A τ μ σ ω β ε)}
    (hst : StackOk C T J (.frame f :: st)) {w : World τ μ σ} (hw : J (f.toOpen :: opens st) w)
    (ok : Bool) (d : β) :
    (f.k (f.resumed w ok).state ok d).Follows C T J (opens st) f.msg none (f.issued.length + 1)
      (f.toOpen :: opens st) (f.resumed w ok) (f.resumed w ok) :=
  hst.2.2.1 _ ok d (hst.resumed hw ok)

section

variable [LE τ]

/-- `StackOk` and `J` are kept by every step of the machine. -/
theorem Refines.step (hC : Refines C Init T J) {c c' : Config A τ μ σ ω β ε} {a : Act A μ β ε}
    (hs : Step C c a c') (hst : StackOk C T J c.stack) (hJ : J (opens c.stack) c.world) :
    StackOk C T J c'.stack ∧ J (opens c'.stack) c'.world := by
  cases hs with
  | @callReturns w st m s hm he =>
    have hF := hC.call hJ (hst.sender hm)
    rw [he] at hF
    exact ⟨hst, hC.keep hF hJ⟩
  | @callSuspends w st m s q k hm he =>
    have hF := hC.call hJ (hst.sender hm)
    rw [he] at hF
    obtain ⟨h1, h2, h3⟩ := hF
    exact ⟨⟨hJ, hC.keep h1 hJ, h3, hst⟩, hC.keep h2 (hC.keep h1 hJ)⟩
  | callReverts hm he => exact ⟨hst, hJ⟩
  | @answerReturns w f st ok d s he =>
    have hF := hst.answered hJ ok d
    rw [he] at hF
    exact ⟨hst.2.2.2, hC.keep hF (hst.resumed hJ ok)⟩
  | @answerSuspends w f st ok d s q k he =>
    have hF := hst.answered hJ ok d
    rw [he] at hF
    obtain ⟨h1, h2, h3⟩ := hF
    have hnext : (f.next ok d ((f.resumed w ok).withState s) q k).toOpen
        = ⟨f.msg, f.issued.length + 1, (f.resumed w ok).withState s⟩ := by
      simp [Frame.toOpen, Frame.next]
    have hJ1 := hC.keep h1 (hst.resumed hJ ok)
    refine ⟨⟨hst.1, by rw [hnext]; exact hJ1, ?_, hst.2.2.2⟩, ?_⟩
    · intro w' ok' d' hw'
      rw [hnext] at hw' ⊢
      simpa [Frame.next] using h3 w' ok' d' hw'
    · rw [opens_frame, hnext]
      exact hC.keep h2 hJ1
  | answerReverts he => exact ⟨hst.2.2.2, hst.1⟩
  | enterOutside ha =>
    refine ⟨⟨?_, hJ, hst⟩, hJ⟩
    rintro rfl
    rcases ha with ha | ha
    · exact absurd rfl ha
    · exact hst.opens_ne_nil ha
  | leaveOutside => exact ⟨hst.2.2, hJ⟩
  | revertOutside => exact ⟨hst.2.2, hst.2.1⟩
  | @drift w st l s hd =>
    exact ⟨hst, hC.keep (hC.drift hJ (hst.sender (a := C.self l) rfl) hd) hJ⟩
  | advance ht => exact ⟨hst, hC.keep (hC.advance hJ ht) hJ⟩

/-- The run lemma of `Refines.step`. -/
theorem Refines.reachable (hC : Refines C Init T J) {c : Config A τ μ σ ω β ε}
    (hc : Reachable C Init c) : StackOk C T J c.stack ∧ J (opens c.stack) c.world := by
  induction hc with
  | init h => exact ⟨trivial, hC.init h⟩
  | step _ hs ih => exact hC.step hs ih.1 ih.2

/-- Facts that every move keeps may be added to the rely. -/
theorem Refines.and (hC : Refines C Init T J) (hinit : ∀ {t s}, Init t s → I [] ⟨t, s, []⟩)
    (hkeep : ∀ {l ctx w ctx' w'}, T l ctx w ctx' w' → J ctx w → I ctx w → I ctx' w') :
    Refines C Init T fun ctx w => J ctx w ∧ I ctx w where
  init h := ⟨hC.init h, hinit h⟩
  keep hT h := ⟨hC.keep hT h.1, hkeep hT h.1 h.2⟩
  call h hs := (hC.call h.1 hs).mono fun _ _ hw => hw.1
  drift h ha hd := hC.drift h.1 ha hd
  advance h ht := hC.advance h.1 ht

/--
**The invariant rule.**

What holds at the start and is kept by every move holds in every reachable configuration,
in the middle of a frame and after any revert as well.
-/
theorem Refines.invariant (hC : Refines C Init T J)
    (hinit : ∀ {t s}, Init t s → I [] ⟨t, s, []⟩)
    (hkeep : ∀ {l ctx w ctx' w'}, T l ctx w ctx' w' → J ctx w → I ctx w → I ctx' w')
    {c : Config A τ μ σ ω β ε} (hc : Reachable C Init c) : I (opens c.stack) c.world :=
  ((hC.and hinit hkeep).reachable hc).2.2

end

end Reentrant

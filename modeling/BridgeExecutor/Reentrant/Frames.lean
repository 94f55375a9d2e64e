import BridgeExecutor.Reentrant.Refines

/-!
# What spans several moves

`Refines` looks at one move at a time.  This file looks at whole frames and at whole runs.

* `Refines.frames` — the rule for what a waiting frame knows about the calls it has issued
* `Completes` — the step that ends a frame, with the message, the world it was entered in and
  all the calls it issued
* `Refines.chain` — every world that a revert may bring back lies between the start and now
* `Refines.forward` — a step goes back to such a world, or stays, and then makes at most two moves
* `Steps.later` — what is there between two transactions is built on for ever after
-/

namespace Reentrant

variable {A τ μ σ ω β ε : Type}

/-! ## Frames -/

section

variable (C : Contract A τ μ σ ω β ε)

/--
`Completes C c w m tr out c'`: with the step from `c` to `c'` a frame ends that accepted the
message `m` in the world `w`.  It has issued the calls of `tr` and ends with `out`.
-/
inductive Completes : Config A τ μ σ ω β ε → World τ μ σ → μ → List (Exchange ω β) →
    Except ε σ → Config A τ μ σ ω β ε → Prop where
  | returns {w st m s} : C.MayCall st (C.sender m) → C.entry w.now m w.state = .done s () →
      Completes ⟨w, st⟩ w m [] (.ok s) ⟨(w.record m).withState s, st⟩
  | reverts {w st m e} : C.MayCall st (C.sender m) → C.entry w.now m w.state = .fail e →
      Completes ⟨w, st⟩ w m [] (.error e) ⟨w, st⟩
  | answerReturns {w f st ok d s} : f.k (f.resumed w ok).state ok d = .done s () →
      Completes ⟨w, .frame f :: st⟩ f.entry f.msg (f.issued ++ [⟨f.pending, ok, d⟩]) (.ok s)
        ⟨(f.resumed w ok).withState s, st⟩
  | answerReverts {w f st ok d e} : f.k (f.resumed w ok).state ok d = .fail e →
      Completes ⟨w, .frame f :: st⟩ f.entry f.msg (f.issued ++ [⟨f.pending, ok, d⟩]) (.error e)
        ⟨f.entry, st⟩

end

variable {C : Contract A τ μ σ ω β ε} {Init : τ → σ → Prop} {T : MoveRel τ μ σ}
  {J : CtxProp τ μ σ}

section

variable [LE τ]

/-- The step that ends a frame is a step of the machine. -/
theorem Completes.step {c c' : Config A τ μ σ ω β ε} {w : World τ μ σ} {m : μ}
    {tr : List (Exchange ω β)} {out : Except ε σ} (h : Completes C c w m tr out c') :
    ∃ a, Step C c a c' := by
  cases h with
  | returns hm he => exact ⟨_, .callReturns hm he⟩
  | reverts hm he => exact ⟨_, .callReverts hm he⟩
  | answerReturns he => exact ⟨_, .answerReturns he⟩
  | answerReverts he => exact ⟨_, .answerReverts he⟩

/--
**The rule for waiting frames.**

What holds of a frame when it first calls out, and is kept by every answer after which it calls
out again, holds of every waiting frame.
-/
theorem Refines.frames (hC : Refines C Init T J) {P : Frame τ μ σ ω β ε → Prop}
    (hcall : ∀ {ctx w m s q k}, J ctx w → C.entry w.now m w.state = .call s q k →
      P ⟨m, w, [], q, (w.record m).withState s, k⟩)
    (hnext : ∀ {ctx} {f : Frame τ μ σ ω β ε} {w ok d s q k}, J (f.toOpen :: ctx) w → P f →
      f.k w.state ok d = .call s q k → P (f.next ok d (w.withState s) q k))
    {c : Config A τ μ σ ω β ε} (hc : Reachable C Init c) :
    ∀ f, Level.frame f ∈ c.stack → P f := by
  induction hc with
  | init _ => intro f hf; cases hf
  | @step c a c' hc hs ih =>
    obtain ⟨hst, hJ⟩ := hC.reachable hc
    cases hs with
    | callReturns hm he => exact ih
    | @callSuspends w st m s q k hm he =>
      intro f hf
      rcases List.mem_cons.mp hf with hf | hf
      · cases hf
        exact hcall hJ he
      · exact ih f hf
    | callReverts hm he => exact ih
    | answerReturns he => exact fun f hf => ih f (List.mem_cons_of_mem _ hf)
    | @answerSuspends w f₀ st ok d s q k he =>
      intro f hf
      rcases List.mem_cons.mp hf with hf | hf
      · cases hf
        exact hnext (hst.resumed hJ ok) (ih f₀ List.mem_cons_self) he
      · exact ih f (List.mem_cons_of_mem _ hf)
    | answerReverts he => exact fun f hf => ih f (List.mem_cons_of_mem _ hf)
    | enterOutside _ => exact fun f hf => ih f (by simpa using hf)
    | leaveOutside => exact fun f hf => ih f (List.mem_cons_of_mem _ hf)
    | revertOutside => exact fun f hf => ih f (List.mem_cons_of_mem _ hf)
    | drift _ => exact ih
    | advance _ => exact ih

end

/-! ## Histories -/

section

/-- Every move goes forward in the preorder `R`. -/
structure Progress (T : MoveRel τ μ σ) (J : CtxProp τ μ σ)
    (R : World τ μ σ → World τ μ σ → Prop) : Prop where
  refl : ∀ w, R w w
  trans : ∀ {w w' w''}, R w w' → R w' w'' → R w w''
  move : ∀ {l ctx w ctx' w'}, T l ctx w ctx' w' → J ctx w → R w w'

variable {R : World τ μ σ → World τ μ σ → Prop}

/--
The worlds that a revert may bring back, innermost first, from `w` down to `base`: each is
`R`-before the next.
-/
def Chain (R : World τ μ σ → World τ μ σ → Prop) (base : World τ μ σ) :
    List (Level A τ μ σ ω β ε) → World τ μ σ → Prop
  | [], w => R base w
  | .frame f :: st, w => R f.before w ∧ R f.entry f.before ∧ Chain R base st f.entry
  | .outside _ saved :: st, w => R saved w ∧ Chain R base st saved

variable {base : World τ μ σ}

theorem Chain.mono (hR : Progress T J R) :
    ∀ {st : List (Level A τ μ σ ω β ε)} {w w' : World τ μ σ}, Chain R base st w → R w w' →
      Chain R base st w'
  | [], _, _, h, hw => hR.trans h hw
  | .frame _ :: _, _, _, h, hw => ⟨hR.trans h.1 hw, h.2⟩
  | .outside _ _ :: _, _, _, h, hw => ⟨hR.trans h.1 hw, h.2⟩

/-- The bottom of the chain lies before its top. -/
theorem Chain.base_le (hR : Progress T J R) :
    ∀ {st : List (Level A τ μ σ ω β ε)} {w : World τ μ σ}, Chain R base st w → R base w
  | [], _, h => h
  | .frame _ :: _, _, h => hR.trans (hR.trans (base_le hR h.2.2) h.2.1) h.1
  | .outside _ _ :: _, _, h => hR.trans (base_le hR h.2) h.1

theorem Chain.resumed (hR : Progress T J R) {f : Frame τ μ σ ω β ε}
    {st : List (Level A τ μ σ ω β ε)} {w : World τ μ σ}
    (h : Chain R base (.frame f :: st) w) (ok : Bool) : R f.before (f.resumed w ok) := by
  cases ok with
  | true => exact h.1
  | false => exact hR.refl _

variable [LE τ]

/-- If every move goes forward in `R`, the machine keeps the chain. -/
theorem Chain.step (hC : Refines C Init T J) (hR : Progress T J R)
    {c c' : Config A τ μ σ ω β ε} {a : Act A μ β ε} (hc : Reachable C Init c)
    (hs : Step C c a c') (h : Chain R base c.stack c.world) :
    Chain R base c'.stack c'.world := by
  obtain ⟨hst, hJ⟩ := hC.reachable hc
  cases hs with
  | callReturns hm he =>
    have hF := hC.call hJ (hst.sender hm)
    rw [he] at hF
    exact h.mono hR (hR.move hF hJ)
  | callSuspends hm he =>
    have hF := hC.call hJ (hst.sender hm)
    rw [he] at hF
    obtain ⟨h1, h2, -⟩ := hF
    exact ⟨hR.move h2 (hC.keep h1 hJ), hR.move h1 hJ, h⟩
  | callReverts hm he => exact h
  | @answerReturns w f st ok d s he =>
    have hJ' := hst.resumed hJ ok
    have hF := hst.answered hJ ok d
    rw [he] at hF
    exact h.2.2.mono hR
      (hR.trans h.2.1 (hR.trans (h.resumed hR ok) (hR.move hF hJ')))
  | @answerSuspends w f st ok d s q k he =>
    have hJ' := hst.resumed hJ ok
    have hF := hst.answered hJ ok d
    rw [he] at hF
    obtain ⟨h1, h2, -⟩ := hF
    have hbefore := hR.trans (h.resumed hR ok) (hR.move h1 hJ')
    exact ⟨hR.move h2 (hC.keep h1 hJ'), hR.trans h.2.1 hbefore, h.2.2⟩
  | answerReverts he => exact h.2.2
  | enterOutside _ => exact ⟨hR.refl _, h⟩
  | leaveOutside => exact h.2.mono hR h.1
  | revertOutside => exact h.2
  | @drift w st l s hd =>
    exact h.mono hR (hR.move (hC.drift hJ (hst.sender (a := C.self l) rfl) hd) hJ)
  | advance ht => exact h.mono hR (hR.move (hC.advance hJ ht) hJ)

/-- The run lemma of `Chain.step`. -/
theorem Refines.chain (hC : Refines C Init T J) (hR : Progress T J R)
    {c : Config A τ μ σ ω β ε} (hc : Reachable C Init c) :
    ∃ base, Chain R base c.stack c.world := by
  induction hc with
  | init h => exact ⟨_, hR.refl _⟩
  | step hc hs ih =>
    obtain ⟨base, h⟩ := ih
    exact ⟨base, h.step hC hR hc hs⟩

/-- The message a step accepts. -/
def Act.accepted : Act A μ β ε → Option μ
  | .call m => some m
  | _ => none

theorem Act.accepted_eq_some {a : Act A μ β ε} {m : μ} (h : a.accepted = some m) :
    a = .call m := by
  cases a with
  | call m' => cases h; rfl
  | _ => cases h

/-- At most two moves of `T`, the first of them with label `l`, the second on the state alone. -/
inductive Forward (T : MoveRel τ μ σ) : MoveRel τ μ σ where
  | same {ctx w} : Forward T none ctx w ctx w
  | one {l ctx w ctx' w'} : T l ctx w ctx' w' → Forward T l ctx w ctx' w'
  | two {l ctx w ctx' v s} : T l ctx w ctx' v → T none ctx' v ctx' (v.withState s) →
      Forward T l ctx w ctx' (v.withState s)

/-- **A step goes on from an earlier world, and from the current one if it undoes nothing.** -/
theorem Refines.forward (hC : Refines C Init T J) (hR : Progress T J R)
    {c c' : Config A τ μ σ ω β ε} {a : Act A μ β ε} (hc : Reachable C Init c)
    (hs : Step C c a c') : ∃ ctx w, J ctx w ∧ R w c.world ∧
      (¬ a.Undoes → ctx = opens c.stack ∧ w = c.world) ∧
      Forward T a.accepted ctx w (opens c'.stack) c'.world := by
  obtain ⟨hst, hJ⟩ := hC.reachable hc
  obtain ⟨base, hchain⟩ := hC.chain hR hc
  cases hs with
  | callReturns hm he =>
    have hF := hC.call hJ (hst.sender hm)
    rw [he] at hF
    exact ⟨_, _, hJ, hR.refl _, fun _ => ⟨rfl, rfl⟩, .one hF⟩
  | @callSuspends w st m s q k hm he =>
    have hF := hC.call hJ (hst.sender hm)
    rw [he] at hF
    exact ⟨_, _, hJ, hR.refl _, fun _ => ⟨rfl, rfl⟩,
      .two (v := (w.record m).withState s) hF.1 hF.2.1⟩
  | callReverts hm he => exact ⟨_, _, hJ, hR.refl _, fun _ => ⟨rfl, rfl⟩, .same⟩
  | @answerReturns w f st ok d s he =>
    have hF := hst.answered hJ ok d
    rw [he] at hF
    refine ⟨_, _, hst.resumed hJ ok, ?_, ?_, .one hF⟩
    · cases ok with
      | true => exact hR.refl _
      | false => exact hchain.1
    · intro ha
      have hok : ok = true := by simpa [Act.Undoes] using ha
      subst hok
      exact ⟨rfl, rfl⟩
  | @answerSuspends w f st ok d s q k he =>
    have hF := hst.answered hJ ok d
    rw [he] at hF
    have hopen : (f.next ok d ((f.resumed w ok).withState s) q k).toOpen
        = ⟨f.msg, f.issued.length + 1, (f.resumed w ok).withState s⟩ := by
      simp [Frame.toOpen, Frame.next]
    refine ⟨_, _, hst.resumed hJ ok, ?_, ?_, ?_⟩
    · cases ok with
      | true => exact hR.refl _
      | false => exact hchain.1
    · intro ha
      have hok : ok = true := by simpa [Act.Undoes] using ha
      subst hok
      exact ⟨rfl, rfl⟩
    · rw [opens_frame, hopen]
      exact .two (v := (f.resumed w ok).withState s) hF.1 hF.2.1
  | @answerReverts w f st ok d e he =>
    exact ⟨_, _, hst.1, hR.trans hchain.2.1 hchain.1, fun ha => absurd trivial ha, .same⟩
  | enterOutside _ => exact ⟨_, _, hJ, hR.refl _, fun _ => ⟨rfl, rfl⟩, .same⟩
  | leaveOutside => exact ⟨_, _, hJ, hR.refl _, fun _ => ⟨rfl, rfl⟩, .same⟩
  | revertOutside => exact ⟨_, _, hst.2.1, hchain.1, fun ha => absurd trivial ha, .same⟩
  | @drift w st l s hd =>
    exact ⟨_, _, hJ, hR.refl _, fun _ => ⟨rfl, rfl⟩,
      .one (hC.drift hJ (hst.sender (a := C.self l) rfl) hd)⟩
  | advance ht => exact ⟨_, _, hJ, hR.refl _, fun _ => ⟨rfl, rfl⟩, .one (hC.advance hJ ht)⟩

theorem Steps.reachable {c c' : Config A τ μ σ ω β ε} (hc : Reachable C Init c)
    (h : Steps C c c') : Reachable C Init c' := by
  induction h with
  | refl => exact hc
  | tail _ hs ih => obtain ⟨a, hs⟩ := hs; exact .step ih hs

/-- **What is there between two transactions is never taken back.** -/
theorem Steps.later (hC : Refines C Init T J) (hR : Progress T J R)
    {c c' : Config A τ μ σ ω β ε} (hc : Reachable C Init c) (hempty : c.stack = [])
    (h : Steps C c c') : R c.world c'.world := by
  have key : Chain R c.world c'.stack c'.world := by
    induction h with
    | refl => rw [hempty]; exact hR.refl _
    | tail hsteps hs ih =>
      obtain ⟨a, hs⟩ := hs
      exact ih.step hC hR (Steps.reachable hc hsteps) hs
  exact key.base_le hR

end

end Reentrant

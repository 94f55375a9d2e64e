import BridgeExecutor.Reentrant.Frames

/-!
# Frames that nobody disturbs

A frame of the contract runs to its end among callees that all report success and leave the
state in a relation `E` with the one they were given.
What a callee does in between is any run of the machine that comes back to the waiting frame.

* `Continues` — from a waiting frame on
* `Undisturbed` — from the message on
* `Undisturbed.steps` — such a frame is a run of the machine
* `exists_undisturbed` — there always is one, if callees may leave the state as it is
-/

namespace Reentrant

variable {A τ μ σ ω β ε : Type} [LE τ] (C : Contract A τ μ σ ω β ε) (E : σ → σ → Prop)

/-- The frame on top of the stack goes on to its end, with the outcome `out`. -/
inductive Continues : Config A τ μ σ ω β ε → Except ε σ → Config A τ μ σ ω β ε → Prop where
  | returns {w w' f st d s} : Steps C ⟨w, .frame f :: st⟩ ⟨w', .frame f :: st⟩ →
      E w.state w'.state → f.k w'.state true d = .done s () →
      Continues ⟨w, .frame f :: st⟩ (.ok s) ⟨w'.withState s, st⟩
  | reverts {w w' f st d e} : Steps C ⟨w, .frame f :: st⟩ ⟨w', .frame f :: st⟩ →
      E w.state w'.state → f.k w'.state true d = .fail e →
      Continues ⟨w, .frame f :: st⟩ (.error e) ⟨f.entry, st⟩
  | suspends {w w' f st d s q k out c} : Steps C ⟨w, .frame f :: st⟩ ⟨w', .frame f :: st⟩ →
      E w.state w'.state → f.k w'.state true d = .call s q k →
      Continues ⟨w'.withState (C.issue q s), .frame (f.next true d (w'.withState s) q k) :: st⟩
        out c →
      Continues ⟨w, .frame f :: st⟩ out c

/-- The message `m` is served without being disturbed. -/
inductive Undisturbed : Config A τ μ σ ω β ε → μ → Except ε σ → Config A τ μ σ ω β ε → Prop where
  | returns {w st m s} : C.MayCall st (C.sender m) → C.entry w.now m w.state = .done s () →
      Undisturbed ⟨w, st⟩ m (.ok s) ⟨(w.record m).withState s, st⟩
  | reverts {w st m e} : C.MayCall st (C.sender m) → C.entry w.now m w.state = .fail e →
      Undisturbed ⟨w, st⟩ m (.error e) ⟨w, st⟩
  | suspends {w st m s q k out c} : C.MayCall st (C.sender m) →
      C.entry w.now m w.state = .call s q k →
      Continues C E ⟨(w.record m).withState (C.issue q s),
        .frame ⟨m, w, [], q, (w.record m).withState s, k⟩ :: st⟩ out c →
      Undisturbed ⟨w, st⟩ m out c

variable {C E} {c c' : Config A τ μ σ ω β ε} {out : Except ε σ} {m : μ}

theorem Continues.steps (h : Continues C E c out c') : Steps C c c' := by
  induction h with
  | returns hs _ hk => exact hs.tail ⟨.resume true _, .answerReturns hk⟩
  | reverts hs _ hk => exact hs.tail ⟨.abort true _ _, .answerReverts hk⟩
  | suspends hs _ hk _ ih => exact (hs.tail ⟨.resume true _, .answerSuspends hk⟩).trans ih

theorem Undisturbed.steps (h : Undisturbed C E c m out c') : Steps C c c' := by
  cases h with
  | returns hm he => exact .single ⟨_, .callReturns hm he⟩
  | reverts hm he => exact .single ⟨_, .callReverts hm he⟩
  | suspends hm he hrest => exact .head ⟨_, .callSuspends hm he⟩ hrest.steps

/-- A frame that returns leaves its state behind. -/
theorem Continues.of_ok {s : σ} (h : Continues C E c (.ok s) c') : c'.world.state = s := by
  generalize hout : Except.ok s = out at h
  induction h with
  | returns _ _ _ => cases hout; rfl
  | reverts _ _ _ => cases hout
  | suspends _ _ _ _ ih => exact ih hout

/-- A frame that reverts leaves the world it was entered in. -/
theorem Continues.of_error {e : ε} (h : Continues C E c (.error e) c') :
    ∀ f st, c.stack = .frame f :: st → c' = ⟨f.entry, st⟩ := by
  generalize hout : Except.error e = out at h
  induction h with
  | returns _ _ _ => cases hout
  | reverts _ _ _ =>
    rintro _ _ ⟨⟩
    rfl
  | suspends _ _ _ _ ih =>
    rintro _ _ ⟨⟩
    have hend := ih hout _ _ rfl
    exact hend

theorem Undisturbed.of_ok {s : σ} (h : Undisturbed C E c m (.ok s) c') : c'.world.state = s := by
  cases h with
  | returns _ _ => rfl
  | suspends _ _ hrest => exact hrest.of_ok

theorem Undisturbed.of_error {e : ε} (h : Undisturbed C E c m (.error e) c') : c' = c := by
  cases h with
  | reverts _ _ => rfl
  | suspends _ _ hrest => exact hrest.of_error _ _ rfl

/-- When the frame ends, the frames below it are as they were. -/
theorem Continues.stack (h : Continues C E c out c') :
    ∀ f st, c.stack = .frame f :: st → c'.stack = st := by
  induction h with
  | returns _ _ _ =>
    rintro _ _ ⟨⟩
    rfl
  | reverts _ _ _ =>
    rintro _ _ ⟨⟩
    rfl
  | suspends _ _ _ _ ih =>
    rintro _ _ ⟨⟩
    exact ih _ _ rfl

theorem Undisturbed.stack (h : Undisturbed C E c m out c') : c'.stack = c.stack := by
  cases h with
  | returns _ _ => rfl
  | reverts _ _ => rfl
  | suspends _ _ hrest => exact hrest.stack _ _ rfl

/-- Callees that do nothing answer every call of a frame, until it ends. -/
theorem exists_continues (hE : ∀ s, E s s) (d : β) :
    ∀ {p : Prog σ ω β ε Unit} (w : World τ μ σ) (f : Frame τ μ σ ω β ε)
      (st : List (Level A τ μ σ ω β ε)), f.k w.state true d = p →
      ∃ out c', Continues C E ⟨w, .frame f :: st⟩ out c' := by
  intro p
  induction p with
  | done s u => exact fun w f st hk => ⟨_, _, .returns .refl (hE _) hk⟩
  | fail e => exact fun w f st hk => ⟨_, _, .reverts .refl (hE _) hk⟩
  | call s q k ih =>
    intro w f st hk
    obtain ⟨out, c', hrest⟩ := ih (C.issue q s) true d (w.withState (C.issue q s))
      (f.next true d (w.withState s) q k) st rfl
    exact ⟨out, c', .suspends .refl (hE _) hk hrest⟩

theorem exists_undisturbed (hE : ∀ s, E s s) (d : β) (hm : C.MayCall c.stack (C.sender m)) :
    ∃ out c', Undisturbed C E c m out c' := by
  obtain ⟨w, st⟩ := c
  cases he : C.entry w.now m w.state with
  | done s u => exact ⟨_, _, .returns hm he⟩
  | fail e => exact ⟨_, _, .reverts hm he⟩
  | call s q k =>
    obtain ⟨out, c', hrest⟩ := exists_continues hE d _ _ st rfl
    exact ⟨out, c', .suspends hm he hrest⟩

end Reentrant

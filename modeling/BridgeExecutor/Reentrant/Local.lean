import BridgeExecutor.Reentrant.Frames

/-!
# Contracts with simple moves

Many contracts can be understood from what a move does to the state alone: which frames are open
and what is in the journal plays no part.
`Locally R` is the move relation that a relation `R` on states gives, and `Prog.Respects` is
what has to be checked of each function, one outgoing call after the other.

* `Refines.of_respects` — such a contract refines `Locally R`
* `Refines.local_invariant` — what `R` keeps holds in every reachable configuration
* `Refines.local_step` — if `R` writes only where a message is accepted, so does the machine
* `Refines.local_later` — what `R` moves forward is never taken back
* `Contract.Since` — what held between two transactions, as long as it is kept

`Prog.run` is for the opposite case, where it is known who answers: it runs a program against a
**handler** for its calls.  `Contract.Serves.of_run` says that this is a run of the machine like any
other.
-/

namespace Reentrant

variable {A τ μ σ ω β ε : Type}

section

variable {C : Contract A τ μ σ ω β ε} {Init : τ → σ → Prop} {R : Option μ → σ → σ → Prop}

/-- Moves of the state alone. -/
def Locally (R : Option μ → σ → σ → Prop) : MoveRel τ μ σ := fun l _ w _ w' => R l w.state w'.state

/-- Every state that the program ends with or hands to others is one `R`-move away from the one it
took over, and so is what the call makes of it. -/
def Prog.Respects (C : Contract A τ μ σ ω β ε) (R : Option μ → σ → σ → Prop) :
    Prog σ ω β ε Unit → Option μ → σ → Prop
  | .done s _, l, s₀ => R l s₀ s
  | .fail _, _, _ => True
  | .call s q k, l, s₀ =>
    R l s₀ s ∧ R none s (C.issue q s) ∧ ∀ s' ok d, Respects C R (k s' ok d) none s'

theorem Prog.Respects.follows {ctx : List (Open τ μ σ)} {m : μ} :
    ∀ {p : Prog σ ω β ε Unit} {l : Option μ} {n : Nat} {cur : List (Open τ μ σ)}
      {w base : World τ μ σ}, p.Respects C R l w.state →
      p.Follows C (Locally R) (fun _ _ => True) ctx m l n cur w base
  | .done _ _, _, _, _, _, _, h => h
  | .fail _, _, _, _, _, _, _ => trivial
  | .call _ _ _, _, _, _, _, _, ⟨h1, h2, h3⟩ =>
    ⟨h1, h2, fun w' ok d _ => (h3 w'.state ok d).follows⟩

variable [LE τ]

/-- **A contract whose functions respect `R` makes only local moves.** -/
theorem Refines.of_respects (hentry : ∀ t m s, (C.entry t m s).Respects C R (some m) s)
    (hdrift : ∀ {a s s'}, C.drifts a s s' → R none s s') (hrefl : ∀ s, R none s s) :
    Refines C Init (Locally R) fun _ _ => True where
  init _ := trivial
  keep _ _ := trivial
  call _ _ := (hentry _ _ _).follows
  drift _ _ hd := hdrift hd
  advance _ _ := hrefl _

/-- The invariant rule for local moves. -/
theorem Refines.local_invariant {J : CtxProp τ μ σ} (hC : Refines C Init (Locally R) J)
    {I : σ → Prop} (hinit : ∀ {t s}, Init t s → I s) (hkeep : ∀ {l s s'}, R l s s' → I s → I s')
    {c : Config A τ μ σ ω β ε} (hc : Reachable C Init c) : I c.world.state :=
  hC.invariant (I := fun _ w => I w.state) (fun h => hinit h) (fun hm _ h => hkeep hm h) hc

/-- **A step that undoes nothing writes only by accepting a message.** -/
theorem Refines.local_step {J : CtxProp τ μ σ} (hC : Refines C Init (Locally R) J)
    (hnone : ∀ {s s'}, R none s s' → s' = s) {c c' : Config A τ μ σ ω β ε} {a : Act A μ β ε}
    (hc : Reachable C Init c) (hs : Step C c a c') (ha : ¬ a.Undoes) :
    c'.world.state = c.world.state ∨
      ∃ m, a = .call m ∧ R (some m) c.world.state c'.world.state := by
  have htrivial : Progress (Locally R) J fun _ _ : World τ μ σ => True :=
    ⟨fun _ => trivial, fun _ _ => trivial, fun _ _ => trivial⟩
  obtain ⟨ctx, w, -, -, hfwd, hforward⟩ := hC.forward htrivial hc hs
  obtain ⟨-, rfl⟩ := hfwd ha
  obtain ⟨w', st'⟩ := c'
  generalize hl : a.accepted = l at hforward
  generalize opens st' = ctx' at hforward
  have hcases : ∀ {v : World τ μ σ}, R l c.world.state v.state →
      v.state = c.world.state ∨ ∃ m, a = .call m ∧ R (some m) c.world.state v.state := by
    intro v hv
    cases l with
    | none => exact Or.inl (hnone hv)
    | some m => exact Or.inr ⟨m, Act.accepted_eq_some hl, hv⟩
  cases hforward with
  | same => exact Or.inl rfl
  | one hm => exact hcases hm
  | @two _ _ _ _ v s hm hm₂ =>
    obtain rfl : s = v.state := hnone hm₂
    exact hcases hm

/-- **What `R` only ever moves forward stays ahead of every state between two transactions.** -/
theorem Refines.local_later {J : CtxProp τ μ σ} (hC : Refines C Init (Locally R) J)
    {P : σ → σ → Prop} (hrefl : ∀ s, P s s) (htrans : ∀ {s s' s''}, P s s' → P s' s'' → P s s'')
    (hmove : ∀ {l s s'}, R l s s' → P s s') {c c' : Config A τ μ σ ω β ε}
    (hc : Reachable C Init c) (hempty : c.stack = []) (h : Steps C c c') :
    P c.world.state c'.world.state :=
  Steps.later (R := fun w w' => P w.state w'.state) hC
    ⟨fun _ => hrefl _, fun h h' => htrans h h', fun hm _ => hmove hm⟩ hc hempty h

end

/-! ## Between two transactions -/

section

variable [LE τ]

/-- Once `Q` holds between two transactions, it holds for ever after. -/
def Contract.Keeps (C : Contract A τ μ σ ω β ε) (Init : τ → σ → Prop) (Q : σ → Prop) : Prop :=
  ∀ c c', Reachable C Init c → c.stack = [] → Steps C c c' → Q c.world.state → Q c'.world.state

/-- `c` lies after a configuration between two transactions in which `Q` held. -/
def Contract.Since (C : Contract A τ μ σ ω β ε) (Init : τ → σ → Prop) (Q : σ → Prop)
    (c : Config A τ μ σ ω β ε) : Prop :=
  ∃ c₀, Reachable C Init c₀ ∧ c₀.stack = [] ∧ Q c₀.world.state ∧ Steps C c₀ c

namespace Contract.Since

variable {C : Contract A τ μ σ ω β ε} {Init : τ → σ → Prop} {Q : σ → Prop}
  {c c' : Config A τ μ σ ω β ε}

theorem of_idle (hc : Reachable C Init c) (hempty : c.stack = []) (hQ : Q c.world.state) :
    C.Since Init Q c := ⟨c, hc, hempty, hQ, .refl⟩

theorem step (h : C.Since Init Q c) {a : Act A μ β ε} (hs : Step C c a c') :
    C.Since Init Q c' := by
  obtain ⟨c₀, hc₀, hempty, hQ, hsteps⟩ := h
  exact ⟨c₀, hc₀, hempty, hQ, hsteps.tail ⟨a, hs⟩⟩

theorem reachable (h : C.Since Init Q c) : Reachable C Init c := by
  obtain ⟨c₀, hc₀, -, -, hsteps⟩ := h
  exact hsteps.reachable hc₀

theorem holds (h : C.Since Init Q c) (hkeeps : C.Keeps Init Q) : Q c.world.state := by
  obtain ⟨c₀, hc₀, hempty, hQ, hsteps⟩ := h
  exact hkeeps c₀ c hc₀ hempty hsteps hQ

end Contract.Since

end

/-! ## Known callees -/

variable {α ρ : Type}

/--
Run the program against a handler for its calls, which is given the rest `r` of the world and
answers with a flag, data and a new rest.  The callees may look at the state of the caller but do
not call back, and a call that fails leaves no trace.
-/
def Prog.run (h : σ → ω → ρ → Bool × β × ρ) : Prog σ ω β ε α → ρ → Except ε (σ × α × ρ)
  | .done s a, r => .ok (s, a, r)
  | .fail e, _ => .error e
  | .call s q k, r =>
    (k s (h s q r).1 (h s q r).2.1).run h (if (h s q r).1 then (h s q r).2.2 else r)

@[simp] theorem Prog.run_done (h : σ → ω → ρ → Bool × β × ρ) (s : σ) (a : α) (r : ρ) :
    (Prog.done s a : Prog σ ω β ε α).run h r = .ok (s, a, r) := rfl

@[simp] theorem Prog.run_fail (h : σ → ω → ρ → Bool × β × ρ) (e : ε) (r : ρ) :
    (Prog.fail e : Prog σ ω β ε α).run h r = .error e := rfl

theorem Prog.run_ofExcept {h : σ → ω → ρ → Bool × β × ρ} {x : Except ε σ} {s : σ} {r r' : ρ} :
    (Prog.ofExcept x : Prog σ ω β ε Unit).run h r = .ok (s, (), r') ↔ x = .ok s ∧ r' = r := by
  cases x with
  | ok s' => simp [eq_comm]
  | error e => simp

/-- A call that the handler answers. -/
theorem Prog.run_call {h : σ → ω → ρ → Bool × β × ρ} {s : σ} {q : ω}
    {k : σ → Bool → β → Prog σ ω β ε α} {r r' : ρ} {ok : Bool} {d : β}
    (hq : h s q r = (ok, d, r')) :
    (Prog.call s q k).run h r = (k s ok d).run h (if ok then r' else r) := by
  rw [Prog.run, hq]

section

variable [LE τ] {C : Contract A τ μ σ ω β ε}

/-- A waiting frame is answered until it returns; by induction on what is left of it. -/
theorem Steps.of_run_call (hissue : ∀ q s, C.issue q s = s) {h : σ → ω → ρ → Bool × β × ρ}
    {st : List (Level A τ μ σ ω β ε)} : ∀ {p : Prog σ ω β ε Unit} {f : Frame τ μ σ ω β ε}
      {s s' : σ} {q : ω} {k : σ → Bool → β → Prog σ ω β ε Unit} {r r' : ρ},
      p = .call s q k → f.pending = q → f.k = k → f.before.state = s →
      p.run h r = .ok (s', (), r') →
      Steps C ⟨f.before, .frame f :: st⟩ ⟨f.before.withState s', st⟩
  | .done _ _, _, _, _, _, _, _, _, hp, _, _, _, _ => nomatch hp
  | .fail _, _, _, _, _, _, _, _, hp, _, _, _, _ => nomatch hp
  | .call s q k, f, _, s', _, _, r, r', rfl, hq, hk, hs, hrun => by
    rw [Prog.run] at hrun
    generalize (h s q r).1 = ok at hrun
    generalize (h s q r).2.1 = d at hrun
    have hw : f.resumed f.before ok = f.before := by cases ok <;> rfl
    have hstate : f.k (f.resumed f.before ok).state ok d = k s ok d := by rw [hw, hk, hs]
    cases hnext : k s ok d with
    | done s₁ a =>
      rw [hnext] at hrun hstate
      cases hrun
      have hstep : Step C ⟨f.before, .frame f :: st⟩ (.resume ok d)
          ⟨(f.resumed f.before ok).withState s', st⟩ := .answerReturns hstate
      rw [hw] at hstep
      exact .single ⟨_, hstep⟩
    | fail e =>
      rw [hnext] at hrun
      cases hrun
    | call s₁ q₁ k₁ =>
      have hstep : Step C ⟨f.before, .frame f :: st⟩ (.resume ok d) _ :=
        .answerSuspends (hstate.trans hnext)
      rw [hw, hissue] at hstep
      exact .head ⟨_, hstep⟩ (Steps.of_run_call hissue
        (f := f.next ok d (f.before.withState s₁) q₁ k₁) hnext rfl rfl rfl hrun)

/-- The contract can serve the message `m` at `t`, and gets from `s` to `s'` with it, whenever
the sender may call. -/
def Contract.Serves (C : Contract A τ μ σ ω β ε) (t : τ) (m : μ) (s s' : σ) : Prop :=
  ∀ c : Config A τ μ σ ω β ε, c.world.now = t → c.world.state = s →
    C.MayCall c.stack (C.sender m) → Steps C c ⟨(c.world.record m).withState s', c.stack⟩

/-- Between two transactions: the message was served and has led to the state `s`. -/
def Config.served (c : Config A τ μ σ ω β ε) (m : μ) (s : σ) : Config A τ μ σ ω β ε :=
  ⟨(c.world.record m).withState s, c.stack⟩

/-- Serving a message between two transactions begins a new account of what holds. -/
theorem Contract.Since.serve {Init : τ → σ → Prop} {Q Q' : σ → Prop}
    {c : Config A τ μ σ ω β ε} (h : C.Since Init Q c) (hkeeps : C.Keeps Init Q)
    (hempty : c.stack = []) {t : τ} {m : μ} {s' : σ} (hserves : C.Serves t m c.world.state s')
    (hnow : c.world.now = t) (hm : C.sender m ≠ C.this) (hQ : Q s' → Q' s') :
    C.Since Init Q' (c.served m s') := by
  have hmay : C.MayCall c.stack (C.sender m) := by
    rw [hempty]
    exact hm
  have hsteps : Steps C c (c.served m s') := hserves c hnow rfl hmay
  have hc := h.reachable
  exact .of_idle (hsteps.reachable hc) hempty
    (hQ (hkeeps _ _ hc hempty hsteps (h.holds hkeeps)))

theorem Contract.Serves.of_done {t : τ} {m : μ} {s s' : σ} (h : C.entry t m s = .done s' ()) :
    C.Serves t m s s' := by
  rintro ⟨w, st⟩ hnow hstate hmay
  subst hnow hstate
  exact .single ⟨_, .callReturns hmay h⟩

/-- **A run against a handler is a run of the machine.** -/
theorem Contract.Serves.of_run (hissue : ∀ q s, C.issue q s = s) {h : σ → ω → ρ → Bool × β × ρ}
    {t : τ} {m : μ} {s s' : σ} {r r' : ρ} (hrun : (C.entry t m s).run h r = .ok (s', (), r')) :
    C.Serves t m s s' := by
  rintro ⟨w, st⟩ hnow hstate hmay
  subst hnow hstate
  cases hp : C.entry w.now m w.state with
  | done s a =>
    rw [hp] at hrun
    cases hrun
    exact .single ⟨_, .callReturns hmay hp⟩
  | fail e =>
    rw [hp] at hrun
    cases hrun
  | call s q k =>
    rw [hp] at hrun
    have hstep := Step.callSuspends (C := C) hmay hp
    rw [hissue] at hstep
    exact .head ⟨_, hstep⟩ (Steps.of_run_call hissue
      (f := ⟨m, w, [], q, (w.record m).withState s, k⟩) rfl rfl rfl rfl hrun)

end

end Reentrant

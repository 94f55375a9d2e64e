import BridgeExecutor.Lib.Budget
import BridgeExecutor.Properties.Executing
import BridgeExecutor.Reentrant.Undisturbed

/-!
# The value of the actions

`execute` compares the value of every action with the balance when its turn comes, but not every
value leaves the executor: a delegatecall is paid for by a call of the executor to itself, and an
action may have the executor as its target.

The loop spends the balance as a `Budget`, as long as nobody else moves it.

* `continues_settles` — a waiting frame of `execute`, with the actions it has still to come to
* `execute_value` — the whole of `execute`
-/

namespace BridgeExecutor

open Reentrant BridgeExecutorBase

variable {H X Φ : Type}

/-- The balance that an action asks for. -/
def Action.needed (a : Action) : Nat := a.value.toNat

/-- The part of the value of an action that leaves the executor. -/
def Action.spent (this : Address) (a : Action) : Nat :=
  if a.withDelegatecall ∨ a.target = this then 0 else a.value.toNat

theorem Action.spent_le (this : Address) (a : Action) : a.spent this ≤ a.needed := by
  unfold Action.spent
  split
  · exact Nat.zero_le _
  · exact Nat.le_refl _

theorem issue_balance (K : Keccak H) (this : Address) (a : Action) (s : State H X) :
    (issue this (K.outCall a) s).balance = s.balance - a.spent this := by
  by_cases h : a.withDelegatecall = true ∨ a.target = this
  · have hissue : issue this (K.outCall a) s = s := if_pos h
    have hspent : a.spent this = 0 := if_pos h
    rw [hissue, hspent, Nat.sub_zero]
  · have hissue : issue this (K.outCall a) s = s.setBalance (s.balance - a.value.toNat) :=
      if_neg h
    have hspent : a.spent this = a.value.toNat := if_neg h
    rw [hissue, hspent]
    rfl

/-- How a frame ends that has the actions `l` before it and the balance `b`. -/
def Settles (this : Address) (l : List Action) (b : Nat) (out : Except Error (State H X)) :
    Prop :=
  match Budget.spend Action.needed (Action.spent this) l b with
  | none => out = .error .insufficientBalance
  | some r => ∃ s, out = .ok s ∧ s.balance = r

theorem settles_nil {this : Address} {s : State H X} : Settles this [] s.balance (.ok s) :=
  ⟨s, rfl, rfl⟩

theorem settles_cons_of_lt {this : Address} {a : Action} {l : List Action} {b : Nat}
    (h : b < a.needed) :
    Settles this (a :: l) b (.error .insufficientBalance : Except Error (State H X)) := by
  unfold Settles
  rw [Budget.spend_cons_of_lt h]

theorem settles_cons_of_le {this : Address} {a : Action} {l : List Action} {b : Nat}
    {out : Except Error (State H X)} (h : a.needed ≤ b) :
    Settles this (a :: l) b out ↔ Settles this l (b - a.spent this) out := by
  unfold Settles
  rw [Budget.spend_cons_of_le h]

theorem drop_of_getElem? {α : Type} {l : List α} {i : Nat} {x : α} (h : l[i]? = some x) :
    l.drop i = x :: l.drop (i + 1) := by
  obtain ⟨hlt, rfl⟩ := List.getElem?_eq_some_iff.mp h
  exact List.drop_eq_getElem_cons hlt

/-- The environment that neither sends ether to the executor nor spends any of its ether. -/
def KeepsBalance (s s' : State H X) : Prop := s'.balance = s.balance

section

variable [DecidableEq H] {K : Keccak H} {child : Child X Φ} {this : Address}

/-- With a good answer a waiting frame of `execute` goes on in its loop, over the arrays it
started with. -/
theorem resumes_of_reachable {w : ExecWorld H X Φ} {f : ExecFrame H X Φ} {st} {id : Nat}
    (hc : Reachable (executor K child this) Constructed ⟨w, .frame f :: st⟩)
    (hf : f.msg.fn = .execute id) (d : List UInt8) :
    (f.entry.state.actionsSets id).toActions.WellFormed ∧
    (w.state.actionsSets id).toActions = (f.entry.state.actionsSets id).toActions ∧
    ∃ n rd, f.issued.length + 1 + n = (f.entry.state.actionsSets id).targets.length ∧
      f.k w.state true d
        = executeLoop K this f.msg.sender id n (f.issued.length + 1) rd w.state := by
  have hdis := dispatching_of_reachable hc f List.mem_cons_self id hf
  have harr := hdis.actions_eq ((sound_of_reachable hc).evolves _ List.mem_cons_self)
  obtain ⟨n, hn, hcont⟩ := hdis.rest
  exact ⟨hdis.wellFormed, harr, n, f.issued.map (·.data) ++ [d], hn, by rw [hcont]; rfl⟩

/-- **A waiting frame of `execute` spends the balance on the actions that are left.** -/
theorem continues_settles {c c' : ExecConfig H X Φ} {out : Except Error (State H X)}
    (hc : Reachable (executor K child this) Constructed c)
    (h : Continues (executor K child this) KeepsBalance c out c') :
    ∀ f st id, c.stack = .frame f :: st → f.msg.fn = .execute id →
      Settles this ((f.entry.state.actionsSets id).toList.drop (f.issued.length + 1))
        c.world.state.balance out := by
  induction h with
  | @returns w w' f st d s hs hE hk =>
    rintro _ _ id ⟨⟩ hf
    obtain ⟨hwf, -, n, rd, hn, hloop⟩ := resumes_of_reachable (hs.reachable hc) hf d
    obtain ⟨rfl, rfl⟩ := executeLoop_eq_done (hloop.symm.trans hk)
    rw [List.drop_eq_nil_of_le (by rw [hwf.length_toList]; omega)]
    rw [KeepsBalance] at hE
    rw [← hE]
    exact settles_nil
  | @reverts w w' f st d e hs hE hk =>
    rintro _ _ id ⟨⟩ hf
    obtain ⟨hwf, harr, n, rd, hn, hloop⟩ := resumes_of_reachable (hs.reachable hc) hf d
    obtain ⟨rfl, a, ha, hb⟩ := executeLoop_eq_fail (by rw [harr]; exact hwf)
      (by rw [harr]; omega) (hloop.symm.trans hk)
    rw [harr, ← hwf.getElem?_toList] at ha
    rw [drop_of_getElem? ha]
    rw [KeepsBalance] at hE
    exact settles_cons_of_lt (by rw [← hE]; exact hb)
  | @suspends w w' f st d s q k out c hs hE hk hrest ih =>
    rintro _ _ id ⟨⟩ hf
    have hc' := hs.reachable hc
    obtain ⟨hwf, harr, n, rd, hn, hloop⟩ := resumes_of_reachable hc' hf d
    have hstep : Step (executor K child this) ⟨w', .frame f :: st⟩ (.resume true d)
        ⟨w'.withState ((executor K child this).issue q s),
          .frame (f.next true d (w'.withState s) q k) :: st⟩ := .answerSuspends hk
    have hlen : (f.next true d (w'.withState s) q k).issued.length = f.issued.length + 1 := by
      simp [Frame.next]
    have hnext := ih (.step hc' hstep) _ st id rfl hf
    rw [hlen] at hnext
    obtain ⟨n', a, rfl, ha, hb, rfl, rfl, rfl⟩ := executeLoop_eq_call (hloop.symm.trans hk)
    rw [harr, ← hwf.getElem?_toList] at ha
    rw [KeepsBalance] at hE
    rw [drop_of_getElem? ha, settles_cons_of_le (by rw [← hE]; exact hb), ← hE]
    have hbalance := issue_balance K this a
      (w'.state.cleared K a (w'.state.actionsSets id).executionTime)
    exact hbalance ▸ hnext

/-- The set of `id` is spent from the balance that `execute` was called with. -/
theorem undisturbed_settles {c c' : ExecConfig H X Φ} {out : Except Error (State H X)}
    (hc : Reachable (executor K child this) Constructed c) {m : Message Φ} {id : Nat}
    (hf : m.fn = .execute id)
    (hg : requireExecutable c.world.now c.world.state id = .ok ())
    (h : Undisturbed (executor K child this) KeepsBalance c m out c') :
    Settles this (c.world.state.actionsSets id).toList
      (c.world.state.receive this m.toMsg).balance out := by
  obtain ⟨w, st⟩ := c
  dsimp only at hg ⊢
  obtain ⟨hwf, a, n, ha, hn⟩ := (sound_of_reachable hc).executable hg
  have hget : (w.state.actionsSets id).toList[0]? = some a := by
    rw [hwf.getElem?_toList]
    exact ha
  have hcons := drop_of_getElem? hget
  rw [List.drop_zero] at hcons
  have hentry : (executor K child this).entry w.now m w.state = _ :=
    external_execute_ok hf hg ha hn
  rw [hcons]
  rcases Nat.lt_or_ge (w.state.receive this m.toMsg).balance a.value.toNat with hb | hb
  · rw [if_pos hb] at hentry
    cases h with
    | returns _ he => cases hentry.symm.trans he
    | reverts _ he =>
      cases hentry.symm.trans he
      exact settles_cons_of_lt hb
    | suspends _ he _ => cases hentry.symm.trans he
  · rw [if_neg (Nat.not_lt.mpr hb)] at hentry
    rw [settles_cons_of_le hb]
    cases h with
    | returns _ he => cases hentry.symm.trans he
    | reverts _ he => cases hentry.symm.trans he
    | suspends hm he hrest =>
      have hnext := continues_settles (.step hc (.callSuspends hm he)) hrest _ _ id rfl hf
      cases hentry.symm.trans he
      have hbalance := issue_balance K this a (w.state.started K this m.toMsg id a)
      exact hbalance ▸ hnext

/--
**The value accounting of `execute`.**

Among callees that report success and leave the balance alone, `execute` reverts exactly if the
actions before some action do not leave enough for its value.  Otherwise what is missing in the
end is the value of the calls, but not of the delegatecalls and of the calls to the executor.
-/
theorem execute_value {c : ExecConfig H X Φ}
    (hc : Reachable (executor K child this) Constructed c) {m : Message Φ} {id : Nat}
    (hmay : (executor K child this).MayCall c.stack m.sender) (hf : m.fn = .execute id)
    (hq : getCurrentState c.world.now c.world.state id = .ok .queued)
    (ht : (c.world.state.actionsSets id).executionTime ≤ c.world.now) :
    (∃ out c', Undisturbed (executor K child this) KeepsBalance c m out c' ∧
      Steps (executor K child this) c c') ∧
    ∀ out c', Undisturbed (executor K child this) KeepsBalance c m out c' →
      (out = .error .insufficientBalance ↔
        ∃ i a, (c.world.state.actionsSets id).toList[i]? = some a ∧
          (c.world.state.receive this m.toMsg).balance
            < Budget.total (Action.spent this) ((c.world.state.actionsSets id).toList.take i)
              + a.needed) ∧
      (out = .error .insufficientBalance → c' = c) ∧
      (out ≠ .error .insufficientBalance → out = .ok c'.world.state ∧
        c'.world.state.balance
            + Budget.total (Action.spent this) (c.world.state.actionsSets id).toList
          = (c.world.state.receive this m.toMsg).balance) := by
  refine ⟨?_, ?_⟩
  · obtain ⟨out, c', h⟩ :=
      exists_undisturbed (E := KeepsBalance) (fun _ => rfl) ([] : List UInt8) hmay
    exact ⟨out, c', h, h.steps⟩
  · intro out c' h
    have hset := undisturbed_settles hc hf (requireExecutable_eq_ok.mpr ⟨hq, ht⟩) h
    rw [← Budget.spend_eq_none (Action.spent_le this)]
    unfold Settles at hset
    split at hset
    · next hnone =>
      subst hset
      exact ⟨⟨fun _ => hnone, fun _ => rfl⟩, fun _ => h.of_error, fun hne => absurd rfl hne⟩
    · next r hsome =>
      obtain ⟨s, rfl, rfl⟩ := hset
      have hleft := Budget.spend_eq_some (Action.spent_le this) hsome
      rw [h.of_ok]
      exact ⟨⟨nofun, fun hnone => nomatch hnone.symm.trans hsome⟩, nofun, fun _ => ⟨rfl, hleft⟩⟩

end

/-- The matured set of the example run, executed with a `msg.value` that stays in the executor. -/
theorem execute_value_matured :
    ∃ out c', Undisturbed (executor Example.keccak Example.child Example.this) KeepsBalance
        ⟨Example.matured, []⟩ { Example.executeMessage with value := 7 } out c' ∧
      out = .ok c'.world.state ∧ c'.world.state.balance = 7 := by
  have hmay : (executor Example.keccak Example.child Example.this).MayCall []
      Example.executeMessage.sender := show Example.executeMessage.sender ≠ Example.this by decide
  obtain ⟨⟨out, c', h, -⟩, hall⟩ := execute_value Example.reachable_matured
    (m := { Example.executeMessage with value := 7 }) hmay rfl rfl (by decide)
  obtain ⟨hfail, -, hok⟩ := hall out c' h
  have hcovered : out ≠ .error .insufficientBalance := by
    rw [Ne, hfail]
    rintro ⟨i, a, ha, hlt⟩
    cases i with
    | zero => cases ha; exact absurd hlt (by decide)
    | succ i => cases ha
  obtain ⟨hout, hbalance⟩ := hok hcovered
  exact ⟨out, c', h, hout, hbalance⟩

end BridgeExecutor

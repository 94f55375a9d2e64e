import Mathlib.Data.List.Nodup
import Mathlib.Logic.Function.Basic

/-!
# Claiming and releasing flags

A map of flags records which keys are taken.
`claim` takes a list of keys one after the other and gives up at the first that is taken
already; `release` frees them.

The loop tests and sets in turn, so a key that occurs twice in the list stops it as well.
`claim_eq_some` turns the loop into a condition on the list and the map it starts from.

`Records` says that the flags that are set are the keys of certain **owners**, each key having
one owner.  `Records.add` and `Records.remove` are the rules for owners that come and go.
-/

namespace Flags

section

variable {κ : Type} [DecidableEq κ]

def claim : List κ → (κ → Bool) → Option (κ → Bool)
  | [], f => some f
  | k :: ks, f => if f k then none else claim ks (Function.update f k true)

def release : List κ → (κ → Bool) → κ → Bool
  | [], f => f
  | k :: ks, f => release ks (Function.update f k false)

/-- `f` with the keys of `ks` taken as well. -/
def taken (ks : List κ) (f : κ → Bool) : κ → Bool := fun x => decide (x ∈ ks) || f x

@[simp] theorem taken_nil (f : κ → Bool) : taken [] f = f := by
  funext x; simp [taken]

theorem taken_cons (k : κ) (ks : List κ) (f : κ → Bool) :
    taken ks (Function.update f k true) = taken (k :: ks) f := by
  funext x
  by_cases hx : x = k
  · subst hx; simp [taken]
  · simp [taken, hx]

theorem claim_eq_some : ∀ {ks : List κ} {f g : κ → Bool},
    claim ks f = some g ↔ ks.Nodup ∧ (∀ k ∈ ks, f k = false) ∧ g = taken ks f
  | [], f, g => by
    rw [claim, taken_nil, Option.some.injEq]
    exact ⟨fun h => ⟨List.nodup_nil, by simp, h.symm⟩, fun h => h.2.2.symm⟩
  | k :: ks, f, g => by
    by_cases hk : f k = true
    · simp [claim, hk]
    · have hkf : f k = false := by simpa using hk
      rw [claim, if_neg hk, claim_eq_some, taken_cons, List.nodup_cons]
      constructor
      · rintro ⟨hnd, hfree, rfl⟩
        have hmem : k ∉ ks := fun hm => by simpa using hfree k hm
        refine ⟨⟨hmem, hnd⟩, ?_, rfl⟩
        intro x hx
        rcases List.mem_cons.mp hx with rfl | hx
        · exact hkf
        · have hne : x ≠ k := fun he => hmem (he ▸ hx)
          simpa [Function.update_of_ne hne] using hfree x hx
      · rintro ⟨⟨hmem, hnd⟩, hfree, rfl⟩
        refine ⟨hnd, ?_, rfl⟩
        intro x hx
        have hne : x ≠ k := fun he => hmem (he ▸ hx)
        rw [Function.update_of_ne hne]
        exact hfree x (List.mem_cons_of_mem _ hx)

theorem taken_eq_true {ks : List κ} {f : κ → Bool} {x : κ} :
    taken ks f x = true ↔ x ∈ ks ∨ f x = true := by
  rw [taken, Bool.or_eq_true, decide_eq_true_eq]

theorem taken_taken (ks ls : List κ) (f : κ → Bool) :
    taken ls (taken ks f) = taken (ks ++ ls) f := by
  funext x
  by_cases hx : x ∈ ls <;> simp [taken, hx]

/-- Claiming two lists one after the other is claiming them at once. -/
theorem free_append_iff {ks ls : List κ} {f : κ → Bool} :
    (ks.Nodup ∧ (∀ k ∈ ks, f k = false)) ∧ ls.Nodup ∧ (∀ l ∈ ls, taken ks f l = false) ↔
      (ks ++ ls).Nodup ∧ ∀ k ∈ ks ++ ls, f k = false := by
  rw [List.nodup_append']
  constructor
  · rintro ⟨⟨hks, hfree⟩, hls, hrest⟩
    refine ⟨⟨hks, hls, fun k hk hl => ?_⟩, fun k hk => ?_⟩
    · have hset := hrest k hl
      rw [(taken_eq_true (f := f)).mpr (Or.inl hk)] at hset
      cases hset
    · rcases List.mem_append.mp hk with hk | hl
      · exact hfree k hk
      · have hset := hrest k hl
        rw [taken, Bool.or_eq_false_iff] at hset
        exact hset.2
  · rintro ⟨⟨hks, hls, hdisj⟩, hfree⟩
    refine ⟨⟨hks, fun k hk => hfree k (List.mem_append_left _ hk)⟩, hls, fun l hl => ?_⟩
    refine Bool.eq_false_iff.mpr fun hset => ?_
    rcases taken_eq_true.mp hset with hk | hset
    · exact hdisj hk hl
    · rw [hfree l (List.mem_append_right _ hl)] at hset
      cases hset

/-- The order in which keys are claimed does not matter. -/
theorem taken_perm {ks ls : List κ} (h : ks.Perm ls) (f : κ → Bool) : taken ks f = taken ls f := by
  funext x
  rw [taken, taken, decide_eq_decide.mpr h.mem_iff]

theorem release_apply : ∀ (ks : List κ) (f : κ → Bool) (x : κ),
    release ks f x = (f x && decide (x ∉ ks))
  | [], f, x => by simp [release]
  | k :: ks, f, x => by
    rw [release, release_apply ks]
    by_cases hx : x = k
    · subst hx; simp
    · simp [hx]

theorem release_eq_true {ks : List κ} {f : κ → Bool} {x : κ} :
    release ks f x = true ↔ f x = true ∧ x ∉ ks := by
  rw [release_apply, Bool.and_eq_true, decide_eq_true_eq]

theorem update_eq_true {k : κ} {f : κ → Bool} {x : κ} :
    Function.update f k false x = true ↔ f x = true ∧ x ≠ k := by
  by_cases hx : x = k
  · subst hx; simp
  · simp [hx]

end

/-! ## Who owns a flag -/

variable {ι κ : Type}

/-- The flags set in `f` are the keys of the owners, and no two owners share a key. -/
structure Records (key : ι → Option κ) (owner : ι → Prop) (f : κ → Bool) : Prop where
  flag : ∀ k, f k = true ↔ ∃ i, owner i ∧ key i = some k
  unique : ∀ {i j k}, owner i → owner j → key i = some k → key j = some k → i = j

namespace Records

variable {key key' : ι → Option κ} {owner owner' : ι → Prop} {f f' : κ → Bool}

/-- Owners that leave take their flags with them. -/
theorem remove (h : Records key owner f) (gone : ι → Prop) (hgone : ∀ i, gone i → owner i)
    (howner : ∀ i k, key i = some k → (owner' i ↔ owner i ∧ ¬ gone i))
    (hf : ∀ k, f' k = true ↔ f k = true ∧ ¬ ∃ i, gone i ∧ key i = some k) :
    Records key owner' f' where
  flag k := by
    rw [hf, h.flag]
    constructor
    · rintro ⟨⟨i, hi, hk⟩, hnot⟩
      exact ⟨i, (howner i k hk).mpr ⟨hi, fun hg => hnot ⟨i, hg, hk⟩⟩, hk⟩
    · rintro ⟨i, hi, hk⟩
      obtain ⟨hown, hng⟩ := (howner i k hk).mp hi
      refine ⟨⟨i, hown, hk⟩, ?_⟩
      rintro ⟨j, hj, hkj⟩
      rw [h.unique hown (hgone j hj) hk hkj] at hng
      exact hng hj
  unique hi hj hki hkj :=
    h.unique ((howner _ _ hki).mp hi).1 ((howner _ _ hkj).mp hj).1 hki hkj

/-- One owner leaves. -/
theorem removeOne [DecidableEq κ] (h : Records key owner f) {j : ι} {k : κ} (hj : owner j)
    (hk : key j = some k) (howner : ∀ i k', key i = some k' → (owner' i ↔ owner i ∧ i ≠ j)) :
    Records key owner' (Function.update f k false) := by
  refine h.remove (fun i => i = j) ?_ howner ?_
  · rintro i rfl
    exact hj
  · intro x
    rw [update_eq_true]
    constructor
    · rintro ⟨hx, hne⟩
      refine ⟨hx, ?_⟩
      rintro ⟨i, rfl, hi⟩
      rw [hk] at hi
      exact hne (Option.some.inj hi).symm
    · rintro ⟨hx, hnot⟩
      refine ⟨hx, ?_⟩
      rintro rfl
      exact hnot ⟨j, rfl, hk⟩

/-- No owner comes or goes. -/
theorem congr (h : Records key owner f) (howner : ∀ i k, key i = some k → (owner' i ↔ owner i)) :
    Records key owner' f := by
  refine h.remove (fun _ => False) (fun _ => False.elim) ?_ ?_
  · intro i k hk
    rw [howner i k hk, not_false_eq_true, and_true]
  · intro k
    simp

/-- New owners claim keys that nobody holds. -/
theorem add [DecidableEq κ] (h : Records key owner f) (new : ι → Prop) (ks : List κ)
    (hold : ∀ i, owner i → key' i = key i) (howner : ∀ i, owner' i ↔ owner i ∨ new i)
    (hnew : ∀ k, k ∈ ks ↔ ∃ i, new i ∧ key' i = some k)
    (hinj : ∀ {i j k}, new i → new j → key' i = some k → key' j = some k → i = j)
    (hfree : ∀ k ∈ ks, f k = false) : Records key' owner' (taken ks f) := by
  -- an old owner's key is not claimed by a new one
  have hdisj : ∀ {i j k}, owner i → new j → key' i = some k → key' j ≠ some k := by
    intro i j k hi hj hki hkj
    have hset : f k = true := (h.flag k).mpr ⟨i, hi, by rw [← hold i hi]; exact hki⟩
    rw [hfree k ((hnew k).mpr ⟨j, hj, hkj⟩)] at hset
    cases hset
  refine ⟨?_, ?_⟩
  · intro k
    rw [taken_eq_true, hnew, h.flag]
    constructor
    · rintro (⟨i, hi, hk⟩ | ⟨i, hi, hk⟩)
      · exact ⟨i, (howner i).mpr (Or.inr hi), hk⟩
      · exact ⟨i, (howner i).mpr (Or.inl hi), by rw [hold i hi]; exact hk⟩
    · rintro ⟨i, hi, hk⟩
      rcases (howner i).mp hi with hi | hi
      · exact Or.inr ⟨i, hi, by rw [← hold i hi]; exact hk⟩
      · exact Or.inl ⟨i, hi, hk⟩
  · intro i j k hi hj hki hkj
    rcases (howner i).mp hi with hi | hi <;> rcases (howner j).mp hj with hj | hj
    · exact h.unique hi hj (by rw [← hold i hi]; exact hki) (by rw [← hold j hj]; exact hkj)
    · exact absurd hkj (hdisj hi hj hki)
    · exact absurd hki (hdisj hj hi hkj)
    · exact hinj hi hj hki hkj

end Records

end Flags

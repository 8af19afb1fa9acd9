import Mathlib.Data.List.Nodup
import SeriesIngest.Proofs.Import.Routing
import SeriesIngest.Proofs.Point.IdentityGrammar

/-!
# The series string is canonical

The series string of an identity lists its tags sorted by key, with a stable sort. When no two
tags share a key, the sorted list is the one list sorted by key that reorders the tags, so every
order of the tags gives the same series string. With a repeated key the stable sort keeps the
given order of the tags that share it, and two orders give two strings.

For identities that pass the checks, with extra allowed characters that delimit nothing (no `,`,
`=` or `{`), the series string reads back (`Tags.seriesString_injective`): two such identities
have one series string exactly when they have one metric and the same tags up to order.

Main statement: `Tags.seriesString_canonical`.
-/

namespace SeriesIngest

namespace Tags

/-- The tags sorted by key are sorted by key. -/
theorem sortedByKey_pairwise (ts : Tags) :
    ts.sortedByKey.Pairwise fun a b => a.key ≤ b.key := by
  have h : ts.sortedByKey.Pairwise fun a b => decide (a.key ≤ b.key) = true :=
    List.pairwise_mergeSort
      (fun a b c hab hbc => by
        simp only [decide_eq_true_eq] at hab hbc ⊢
        exact String.le_trans hab hbc)
      (fun a b => by
        simp only [Bool.or_eq_true, decide_eq_true_eq]
        exact String.le_total a.key b.key) ts.toList
  exact h.imp fun hab => by simpa using hab

/-- Tags with distinct keys sort to the same list in every order. -/
theorem sortedByKey_eq_of_perm {ts ts' : Tags} (hkeys : (ts.toList.map Tag.key).Nodup)
    (hp : ts.toList.Perm ts'.toList) : ts.sortedByKey = ts'.sortedByKey := by
  refine List.Perm.eq_of_pairwise (fun a b ha hb hab hba => ?_) ts.sortedByKey_pairwise
    ts'.sortedByKey_pairwise ((perm_sortedByKey ts).trans (hp.trans (perm_sortedByKey ts').symm))
  -- two tags of one identity with equal keys are one tag
  have ha' : a ∈ ts.toList := (perm_sortedByKey ts).subset ha
  have hb' : b ∈ ts.toList := hp.symm.subset ((perm_sortedByKey ts').subset hb)
  exact List.inj_on_of_nodup_map hkeys ha' hb' (String.le_antisymm hab hba)

/-- Reordering tags with distinct keys keeps the series string. -/
theorem seriesString_eq_of_perm (m : String) {ts ts' : Tags}
    (hkeys : (ts.toList.map Tag.key).Nodup) (hp : ts.toList.Perm ts'.toList) :
    ts.seriesString m = ts'.seriesString m := by
  rw [seriesString, seriesString, sortedByKey_eq_of_perm hkeys hp]

/-- With a repeated key, the order of the tags that share it shows in the series string. -/
example : (ofPairs [("a", "1"), ("a", "2")]).seriesString "m" = "m\x7ba=1,a=2\x7d" ∧
    (ofPairs [("a", "2"), ("a", "1")]).seriesString "m" = "m\x7ba=2,a=1\x7d" := by
  simp only [seriesString, sortedByKey, ofPairs, List.map_cons, List.map_nil]
  rw [List.mergeSort_of_pairwise (by decide), List.mergeSort_of_pairwise (by decide)]
  decide

/-- Tags with distinct keys give one series string in every order, and two checked identities with
undelimited extra characters share a series string exactly when they agree up to tag order. -/
theorem seriesString_canonical :
    (∀ (m : String) (ts ts' : Tags), (ts.toList.map Tag.key).Nodup →
      ts.toList.Perm ts'.toList → ts.seriesString m = ts'.seriesString m) ∧
    ∀ (allowed : String) (maxTags : Nat) (m₁ m₂ : String) (t₁ t₂ : Tags), Undelimited allowed →
      checkIdentity m₁ t₁ maxTags allowed = .ok () → checkIdentity m₂ t₂ maxTags allowed = .ok () →
      (t₁.seriesString m₁ = t₂.seriesString m₂ ↔ m₁ = m₂ ∧ t₁.toList.Perm t₂.toList) := by
  refine ⟨fun m ts ts' hkeys hp => seriesString_eq_of_perm m hkeys hp, ?_⟩
  intro allowed maxTags m₁ m₂ t₁ t₂ ha h₁ h₂
  constructor
  · exact seriesString_injective (plainIdentity_of_checkIdentity ha h₁)
      (plainIdentity_of_checkIdentity ha h₂)
  · rintro ⟨rfl, hp⟩
    -- the checks refuse a key given twice
    have hkeys : (t₁.toList.map Tag.key).Nodup := ((checkIdentity_eq_ok_iff ..).1 h₁).2.2.2.2
    exact seriesString_eq_of_perm m₁ hkeys hp

end Tags

end SeriesIngest

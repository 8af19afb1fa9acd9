import Mathlib.Data.List.Nodup
import Mathlib.Logic.Relation
import SeriesIngest.Proofs.Ids.Keeps
import SeriesIngest.Proofs.Row.Rebase

/-!
# Ids are handed out in order, once per name

An id space hands out the numbers 1, 2, … in order, each written as `width` big-endian bytes,
and answers lookups both ways: the id of a name, and the name of an id. Every creation advances
the counter, also one that fails because the space is used up. A failure comes only once every
number the width can write has been handed out, and the counter does not come back into range
before it wraps, after `2 ^ 64 - 1` attempts; until then no number is skipped and none is given
twice. The attempt that wraps hands out the zero id (`IdSpace.getOrCreate_of_wrap`).

`IdSpace.Numbered` is the invariant: the `j`-th name to get an id got `j + 1`, no name is listed
twice, and the number of names is the number of attempts, capped at the greatest id. It holds of
an empty space of width at most 8 and every creation short of the wrap keeps it
(`IdSpace.Numbered.getOrCreate`). Under it the two lookups are inverse
(`IdSpace.Numbered.id?_iff_name?`), and a creation does exactly one of three things: it gives a
name its id back, hands out the next number while there is room, or fails once the space is full
(`getOrCreate_of_id?`, `getOrCreate_of_room`, `getOrCreate_of_full`).

Main statement: `IdRegistry.allocation_consistent`, over every registry that calls lead to with
fewer than `2 ^ 64` attempts of each kind.
-/

namespace SeriesIngest

namespace Bytes

/-- Numbers below `256 ^ w` have different `w`-byte big-endian forms. -/
theorem ofNatBE_inj {w a b : Nat} (ha : a < 256 ^ w) (hb : b < 256 ^ w)
    (h : ofNatBE w a = ofNatBE w b) : a = b := by
  have h' := congrArg toNatBE h
  rwa [toNatBE_ofNatBE, toNatBE_ofNatBE, Nat.mod_eq_of_lt ha, Nat.mod_eq_of_lt hb] at h'

end Bytes

/-- In a list whose entries `f` tells apart, the first entry with `f e = a` is the one entry with
`f e = a`. -/
theorem find?_map_eq_some_iff {α β γ : Type} [DecidableEq β] {l : List α} {f : α → β} (g : α → γ)
    (hf : (l.map f).Nodup) (a : β) (c : γ) :
    (l.find? fun e => f e = a).map g = some c ↔ ∃ e ∈ l, f e = a ∧ g e = c := by
  constructor
  · intro h
    obtain ⟨e, he, rfl⟩ := Option.map_eq_some_iff.1 h
    exact ⟨e, List.mem_of_find?_eq_some he, by simpa using List.find?_some he, rfl⟩
  · rintro ⟨e, he, hfe, rfl⟩
    obtain ⟨e', he'⟩ := Option.isSome_iff_exists.1
      ((List.find?_isSome (p := fun e => decide (f e = a))).2 ⟨e, he, by simpa using hfe⟩)
    have hfe' : f e' = a := by simpa using List.find?_some he'
    have : e' = e :=
      List.inj_on_of_nodup_map hf (List.mem_of_find?_eq_some he') he (hfe'.trans hfe.symm)
    rw [he', this]
    rfl

namespace IdSpace

/-- The names of a space, in the order they got their ids. -/
def names (s : IdSpace) : List String := s.entries.map Prod.fst

@[simp] theorem length_names (s : IdSpace) : s.names.length = s.entries.length := by
  simp [names]

/-- A name without an id is not among the names. -/
theorem not_mem_names {s : IdSpace} {n : String} (h : s.id? n = none) : n ∉ s.names := by
  simp only [id?, Option.map_eq_none_iff, List.find?_eq_none] at h
  simp only [names, List.mem_map, not_exists, not_and]
  intro e he hn
  exact h e he (by simpa using hn)

/-- The width of a space never changes. -/
@[simp] theorem width_getOrCreate (s : IdSpace) (kind : IdKind) (n : String) :
    (s.getOrCreate kind n).1.width = s.width := by
  unfold getOrCreate
  split
  · rfl
  · dsimp only
    split <;> rfl

/-- The greatest id of a space at most 8 bytes wide is the greatest number its width writes. -/
theorem maxId_eq {s : IdSpace} (h : s.width ≤ 8) : s.maxId = 256 ^ s.width - 1 := by
  unfold maxId
  split_ifs with h8
  · rw [show s.width = 8 by omega]
    decide
  · rw [Nat.pow_eq, pow_mul]
    rfl

/-- The allocation attempts a space has seen, counted modulo `2 ^ 64` as its counter counts them:
the counter starts at 1 and every attempt advances it. -/
def attempts (s : IdSpace) : Nat := (s.next - 1).toNat

/-- The counter reads one past the attempts, modulo `2 ^ 64`. -/
theorem toNat_next (s : IdSpace) : s.next.toNat = (s.attempts + 1) % 2 ^ 64 := by
  conv_lhs => rw [← UInt64.sub_add_cancel s.next 1]
  rw [UInt64.toNat_add, attempts]
  rfl

/-- After an attempt, the attempts are what the counter read. -/
theorem attempts_of_next {s s' : IdSpace} (h : s'.next = s.next + 1) :
    s'.attempts = s.next.toNat := by
  rw [attempts, h, UInt64.add_sub_cancel]

/-- A space as the allocator keeps it: its width fits the 8 bytes of the counter, no name is
listed twice, the `j`-th name to get an id got `j + 1`, and the names count the attempts up to
the greatest id. -/
structure Numbered (s : IdSpace) : Prop where
  width_le : s.width ≤ 8
  nodup : s.names.Nodup
  ids : ∀ j (h : j < s.entries.length), s.entries[j].2 = Bytes.ofNatBE s.width (j + 1)
  count : s.entries.length = min s.attempts s.maxId

/-- An empty space of width at most 8 is numbered. -/
theorem numbered_empty {w : Nat} (h : w ≤ 8) : ({ width := w } : IdSpace).Numbered where
  width_le := h
  nodup := List.nodup_nil
  ids _ hj := absurd hj (Nat.not_lt_zero _)
  count := by simp [attempts]

namespace Numbered

variable {s : IdSpace} (h : s.Numbered)
include h

theorem maxId_eq' : s.maxId = 256 ^ s.width - 1 := maxId_eq h.width_le

/-- The numbers of a space fit the 64 bits of its counter. -/
theorem pow_width_le : 256 ^ s.width ≤ 2 ^ 64 :=
  calc 256 ^ s.width ≤ 256 ^ 8 := Nat.pow_le_pow_right (by norm_num) h.width_le
    _ = 2 ^ 64 := by norm_num

/-- A space holds fewer names than its width can number. -/
theorem count_lt : s.entries.length < 256 ^ s.width := by
  have hpos : 0 < 256 ^ s.width := Nat.pow_pos (by norm_num)
  have := h.count
  have := h.maxId_eq'
  omega

/-- The entries are the names, the `j`-th with the id `j + 1`. -/
theorem mem_iff {n : String} {i : Bytes} :
    (n, i) ∈ s.entries ↔ ∃ j, s.names[j]? = some n ∧ i = Bytes.ofNatBE s.width (j + 1) := by
  constructor
  · intro hm
    obtain ⟨j, hj, he⟩ := List.mem_iff_getElem.1 hm
    refine ⟨j, by simp [names, List.getElem?_eq_getElem hj, he], ?_⟩
    rw [← h.ids j hj, he]
  · rintro ⟨j, hn, rfl⟩
    have hj : j < s.entries.length := by
      simpa using (List.getElem?_eq_some_iff.1 hn).1
    have hfst : s.entries[j].1 = n := by
      simpa [names, List.getElem?_eq_getElem hj] using hn
    rw [← h.ids j hj, ← hfst]
    exact List.getElem_mem hj

/-- Every id has the width of its space. -/
theorem length_of_mem {n : String} {i : Bytes} (hm : (n, i) ∈ s.entries) : i.length = s.width := by
  obtain ⟨j, -, rfl⟩ := h.mem_iff.1 hm
  exact Bytes.length_ofNatBE _ _

/-- No id is listed twice: the ids `1, …, count` all have different forms. -/
theorem ids_nodup : (s.entries.map Prod.snd).Nodup := by
  rw [List.nodup_iff_injective_get]
  intro a b hab
  have ha := a.isLt
  have hb := b.isLt
  simp only [List.length_map] at ha hb
  simp only [List.get_eq_getElem, List.getElem_map, h.ids _ ha, h.ids _ hb] at hab
  have hlt := h.count_lt
  exact Fin.ext (by have := Bytes.ofNatBE_inj (by omega) (by omega) hab; omega)

theorem id?_eq_some_iff {n : String} {i : Bytes} : s.id? n = some i ↔ (n, i) ∈ s.entries := by
  rw [id?, find?_map_eq_some_iff Prod.snd h.nodup]
  constructor
  · rintro ⟨e, he, rfl, rfl⟩
    exact he
  · intro he
    exact ⟨_, he, rfl, rfl⟩

theorem name?_eq_some_iff {n : String} {i : Bytes} : s.name? i = some n ↔ (n, i) ∈ s.entries := by
  rw [name?, find?_map_eq_some_iff Prod.fst h.ids_nodup]
  constructor
  · rintro ⟨e, he, rfl, rfl⟩
    exact he
  · intro he
    exact ⟨_, he, rfl, rfl⟩

/-- The id of a name and the name of an id are inverse maps. -/
theorem id?_iff_name? {n : String} {i : Bytes} : s.id? n = some i ↔ s.name? i = some n := by
  rw [h.id?_eq_some_iff, h.name?_eq_some_iff]

end Numbered

section Create

variable {s : IdSpace} {kind : IdKind} {n : String}

/-- While the space has room, every attempt handed out an id, and the counter reads the next
number. -/
theorem Numbered.next_of_room (h : s.Numbered) (hroom : s.entries.length + 1 < 256 ^ s.width) :
    s.next.toNat = s.entries.length + 1 := by
  have hcount := h.count
  have hmax := h.maxId_eq'
  have hatt : s.attempts = s.entries.length := by omega
  rw [toNat_next, hatt, Nat.mod_eq_of_lt (by have := h.pow_width_le; omega)]

/-- Once the space is full, the count is the greatest id and the attempts have reached it. -/
theorem Numbered.of_full (h : s.Numbered) (hfull : 256 ^ s.width ≤ s.entries.length + 1) :
    s.entries.length = s.maxId ∧ s.maxId ≤ s.attempts := by
  have := h.count
  have := h.maxId_eq'
  omega

/-- A new name gets the next number while the space has room for it. -/
theorem getOrCreate_of_room (h : s.Numbered) (hn : s.id? n = none)
    (hroom : s.entries.length + 1 < 256 ^ s.width) :
    s.getOrCreate kind n =
      ({ s with next := s.next + 1,
                entries := s.entries ++ [(n, Bytes.ofNatBE s.width (s.entries.length + 1))] },
        .ok (Bytes.ofNatBE s.width (s.entries.length + 1))) := by
  have hnext := h.next_of_room hroom
  have hin : ¬ s.next.toNat > ({ s with next := s.next + 1 } : IdSpace).maxId := by
    show ¬ s.next.toNat > s.maxId
    rw [h.maxId_eq', hnext]
    omega
  simp only [getOrCreate, hn]
  rw [if_neg hin, Nat.min_eq_left h.width_le, hnext]

/-- Once the space is full, a new name is refused short of the wrap, and only the counter
moves. -/
theorem getOrCreate_of_full (h : s.Numbered) (hn : s.id? n = none)
    (hfull : 256 ^ s.width ≤ s.entries.length + 1) (hfew : s.attempts + 1 < 2 ^ 64) :
    s.getOrCreate kind n =
      ({ s with next := s.next + 1 }, .error (.idsExhausted kind s.width)) := by
  have hout : s.next.toNat > ({ s with next := s.next + 1 } : IdSpace).maxId := by
    show s.next.toNat > s.maxId
    rw [toNat_next, Nat.mod_eq_of_lt hfew]
    have := (h.of_full hfull).2
    omega
  simp only [getOrCreate, hn]
  rw [if_pos hout]

/-- The attempt after the `2 ^ 64 - 1`-st reads a counter of 0, which every width takes: a new
name gets the zero id, even in a full space. -/
theorem getOrCreate_of_wrap (hn : s.id? n = none) (hwrap : s.attempts + 1 = 2 ^ 64) :
    (s.getOrCreate kind n).2 = .ok (Bytes.ofNatBE (min s.width 8) 0) := by
  have hnext : s.next.toNat = 0 := by rw [toNat_next, hwrap, Nat.mod_self]
  have hin : ¬ s.next.toNat > ({ s with next := s.next + 1 } : IdSpace).maxId := by
    rw [hnext]
    exact Nat.not_lt_zero _
  simp only [getOrCreate, hn]
  rw [if_neg hin, hnext]

/-- A creation fails only for a new name once the space is full, and then only the counter
moves. -/
theorem getOrCreate_eq_error (h : s.Numbered) {s' : IdSpace} {e : WriteError}
    (he : s.getOrCreate kind n = (s', .error e)) :
    s.id? n = none ∧ 256 ^ s.width ≤ s.entries.length + 1 ∧ e = .idsExhausted kind s.width ∧
      s' = { s with next := s.next + 1 } := by
  rcases hid : s.id? n with _ | i
  · by_cases hroom : s.entries.length + 1 < 256 ^ s.width
    · rw [getOrCreate_of_room h hid hroom] at he
      cases he
    · -- past the room the call refuses the name or, at the wrap, hands out the zero id
      refine ⟨rfl, by omega, ?_⟩
      simp only [getOrCreate, hid] at he
      split at he
      · rw [Prod.mk.injEq, Except.error.injEq] at he
        exact ⟨he.2.symm, he.1.symm⟩
      · simp at he
  · rw [getOrCreate_of_id? hid] at he
    cases he

/-- An attempt moves the attempts on by one at most. -/
theorem attempts_getOrCreate_le (s : IdSpace) (kind : IdKind) (n : String) :
    (s.getOrCreate kind n).1.attempts ≤ s.attempts + 1 := by
  unfold getOrCreate
  split
  · exact Nat.le_succ _
  · dsimp only
    have hle : s.next.toNat ≤ s.attempts + 1 := by
      rw [toNat_next]
      exact Nat.mod_le _ _
    split
    · rwa [attempts_of_next rfl]
    · rwa [attempts_of_next rfl]

/-- Every creation short of the wrap keeps a space numbered. -/
theorem Numbered.getOrCreate (h : s.Numbered) (kind : IdKind) (n : String)
    (hfew : s.id? n = none → s.attempts + 1 < 2 ^ 64) : (s.getOrCreate kind n).1.Numbered := by
  rcases hid : s.id? n with _ | i
  · by_cases hroom : s.entries.length + 1 < 256 ^ s.width
    · rw [getOrCreate_of_room h hid hroom]
      have hnext := h.next_of_room hroom
      have hmax := h.maxId_eq'
      refine ⟨h.width_le, ?_, fun j hj => ?_, ?_⟩
      · show ((s.entries ++ [_]).map Prod.fst).Nodup
        rw [List.map_append, List.nodup_append]
        refine ⟨h.nodup, List.nodup_singleton n, fun a ha b hb => ?_⟩
        rw [List.mem_singleton.1 hb]
        rintro rfl
        exact not_mem_names hid ha
      · simp only [List.length_append, List.length_singleton] at hj
        by_cases hjl : j < s.entries.length
        · simp only [List.getElem_append_left hjl, h.ids j hjl]
        · have hj' : j = s.entries.length := by omega
          subst hj'
          simp
      · show (s.entries ++ _).length = min (attempts _) s.maxId
        rw [attempts_of_next rfl, hnext, List.length_append, List.length_singleton]
        omega
    · rw [getOrCreate_of_full h hid (by omega) (hfew hid)]
      have hfull := h.of_full (by omega)
      have hatt : ({ s with next := s.next + 1 } : IdSpace).attempts = s.attempts + 1 := by
        rw [attempts_of_next rfl, toNat_next, Nat.mod_eq_of_lt (hfew hid)]
      refine ⟨h.width_le, h.nodup, h.ids, ?_⟩
      show s.entries.length = min (({ s with next := s.next + 1 } : IdSpace).attempts) s.maxId
      omega
  · rwa [getOrCreate_of_id? hid]

end Create

end IdSpace

namespace IdRegistry

/-- The names of a kind, in the order they got their ids. -/
def names (r : IdRegistry) (k : IdKind) : List String := (r.space k).names

/-- The allocation attempts of a kind, modulo `2 ^ 64`. -/
def attempts (r : IdRegistry) (k : IdKind) : Nat := (r.space k).attempts

/-- One creation call, of some kind and name, that is not the `2 ^ 64`-th attempt of its kind. -/
def Creates (r r' : IdRegistry) : Prop :=
  ∃ k n, (r.id? k n = none → r.attempts k + 1 < 2 ^ 64) ∧ r' = (r.getOrCreate k n).1

/-- `r'` is `r` after some creation calls, with fewer than `2 ^ 64` attempts of each kind in all.
Lookups of ids and of names change nothing, so these are the registries that such sequences of
calls lead to. -/
def Grows : IdRegistry → IdRegistry → Prop := Relation.ReflTransGen Creates

/-- A registry that calls lead to from empty spaces, each at most 8 bytes wide. -/
def Reachable (r : IdRegistry) : Prop :=
  ∃ a b c, a ≤ 8 ∧ b ≤ 8 ∧ c ≤ 8 ∧ (ofWidths a b c).Grows r

/-- Every space can take `n` more attempts before its counter wraps. -/
def Fits (r : IdRegistry) (n : Nat) : Prop := ∀ k, r.attempts k + n < 2 ^ 64

/-- Every space of the registry is numbered. -/
def Numbered (r : IdRegistry) : Prop := ∀ k, (r.space k).Numbered

theorem Grows.refl (r : IdRegistry) : r.Grows r := Relation.ReflTransGen.refl

theorem Grows.trans {r r' r'' : IdRegistry} (h₁ : r.Grows r') (h₂ : r'.Grows r'') : r.Grows r'' :=
  Relation.ReflTransGen.trans h₁ h₂

theorem grows_getOrCreate (r : IdRegistry) (k : IdKind) (n : String)
    (hfew : r.id? k n = none → r.attempts k + 1 < 2 ^ 64) : r.Grows (r.getOrCreate k n).1 :=
  Relation.ReflTransGen.single ⟨k, n, hfew, rfl⟩

/-- A creation of one kind changes the space of that kind and no other. -/
theorem space_getOrCreate (r : IdRegistry) (k k' : IdKind) (n : String) :
    (r.getOrCreate k n).1.space k' =
      if k' = k then ((r.space k).getOrCreate k n).1 else r.space k' := by
  cases k <;> cases k' <;> rfl

theorem getOrCreate_snd (r : IdRegistry) (k : IdKind) (n : String) :
    (r.getOrCreate k n).2 = ((r.space k).getOrCreate k n).2 := rfl

/-- A creation fails only for a new name once the space is full; the name still has no id and
the space is as full afterwards. -/
theorem getOrCreate_eq_error {r r' : IdRegistry} (h : r.Numbered) {k : IdKind} {n : String}
    {e : WriteError} (he : r.getOrCreate k n = (r', .error e)) :
    r'.id? k n = none ∧ 256 ^ r'.width k ≤ r'.count k + 1 ∧ e = .idsExhausted k (r'.width k) := by
  have hs : (r.space k).getOrCreate k n = (((r.space k).getOrCreate k n).1, .error e) :=
    Prod.ext rfl (by rw [← getOrCreate_snd, he])
  obtain ⟨hid, hfull, rfl, hs'⟩ := IdSpace.getOrCreate_eq_error (h k) hs
  have hspace : r'.space k = { r.space k with next := (r.space k).next + 1 } := by
    rw [← show (r.getOrCreate k n).1 = r' by rw [he], space_getOrCreate, if_pos rfl, hs']
  have hw : r'.width k = r.width k := by rw [width, hspace]; rfl
  refine ⟨by rw [id?, hspace]; exact hid, ?_, by rw [hw]; rfl⟩
  rw [hw, count, hspace]
  exact hfull

/-- A creation moves the attempts of its kind on by one at most, and those of the other kinds not
at all. -/
theorem attempts_getOrCreate (r : IdRegistry) (k k' : IdKind) (n : String) :
    (r.getOrCreate k n).1.attempts k' ≤ r.attempts k' + 1 ∧
      (k' ≠ k → (r.getOrCreate k n).1.attempts k' = r.attempts k') := by
  simp only [attempts, space_getOrCreate]
  split_ifs with hk
  · subst hk
    exact ⟨IdSpace.attempts_getOrCreate_le _ _ _, fun hne => absurd rfl hne⟩
  · exact ⟨Nat.le_succ _, fun _ => rfl⟩

theorem Fits.mono {r : IdRegistry} {n m : Nat} (h : r.Fits n) (hmn : m ≤ n) : r.Fits m :=
  fun k => Nat.lt_of_le_of_lt (Nat.add_le_add_left hmn _) (h k)

/-- A registry whose attempts grew by one at most in every kind has room for one attempt less. -/
theorem Fits.of_attempts_le {r r' : IdRegistry} {n : Nat} (h : r.Fits (n + 1))
    (hle : ∀ k, r'.attempts k ≤ r.attempts k + 1) : r'.Fits n :=
  fun k => by have := h k; have := hle k; omega

theorem Fits.getOrCreate {r : IdRegistry} {n : Nat} (h : r.Fits (n + 1)) (k : IdKind) (name : String) :
    (r.getOrCreate k name).1.Fits n :=
  h.of_attempts_le fun k' => (attempts_getOrCreate r k k' name).1

/-- Every creation short of the wrap keeps a registry numbered. -/
theorem Numbered.getOrCreate {r : IdRegistry} (h : r.Numbered) (k : IdKind) (n : String)
    (hfew : r.id? k n = none → r.attempts k + 1 < 2 ^ 64) : (r.getOrCreate k n).1.Numbered := by
  intro k'
  rw [space_getOrCreate]
  split_ifs with hk
  · subst hk
    exact (h k').getOrCreate k' n hfew
  · exact h k'

theorem Numbered.of_grows {r r' : IdRegistry} (h : r.Numbered) (hg : r.Grows r') : r'.Numbered := by
  induction hg with
  | refl => exact h
  | tail _ hc ih =>
    obtain ⟨k, n, hfew, rfl⟩ := hc
    exact ih.getOrCreate k n hfew

theorem Reachable.numbered {r : IdRegistry} (hr : r.Reachable) : r.Numbered := by
  obtain ⟨a, b, c, ha, hb, hc, hg⟩ := hr
  refine Numbered.of_grows (fun k => ?_) hg
  cases k
  · exact IdSpace.numbered_empty ha
  · exact IdSpace.numbered_empty hb
  · exact IdSpace.numbered_empty hc

theorem Reachable.grows {r r' : IdRegistry} (hr : r.Reachable) (hg : r.Grows r') :
    r'.Reachable := by
  obtain ⟨a, b, c, ha, hb, hc, h₀⟩ := hr
  exact ⟨a, b, c, ha, hb, hc, h₀.trans hg⟩

/-- A later registry keeps every id. -/
theorem Grows.keeps {r r' : IdRegistry} (hg : r.Grows r') : r.Keeps r' := by
  induction hg with
  | refl => exact Keeps.refl r
  | @tail b _ _ hc ih =>
    obtain ⟨k, n, -, rfl⟩ := hc
    exact ih.trans (getOrCreate_keeps
      (show b.getOrCreate k n = ((b.getOrCreate k n).1, (b.getOrCreate k n).2) from rfl)).1

/-- The widths never change. -/
theorem Grows.width_eq {r r' : IdRegistry} (hg : r.Grows r') (k : IdKind) :
    r'.width k = r.width k := by
  induction hg with
  | refl => rfl
  | tail _ hc ih =>
    obtain ⟨k', n, -, rfl⟩ := hc
    simp only [width, space_getOrCreate] at ih ⊢
    split_ifs with hk
    · rw [IdSpace.width_getOrCreate, ← ih, hk]
    · exact ih

/-- Once a space is full, no later call adds a name to it. -/
theorem Grows.names_of_full {r r' : IdRegistry} (h : r.Numbered) (hg : r.Grows r') {k : IdKind}
    (hfull : 256 ^ r.width k ≤ r.count k + 1) : r'.names k = r.names k := by
  induction hg with
  | refl => rfl
  | tail hg' hc ih =>
    obtain ⟨k', n, hfew, rfl⟩ := hc
    rename_i r₁
    have h₁ := h.of_grows hg'
    simp only [names, space_getOrCreate] at ih ⊢
    split_ifs with hk
    · subst hk
      -- the space is still full, so the call changes no name
      have hfull₁ : 256 ^ (r₁.space k).width ≤ (r₁.space k).entries.length + 1 := by
        have hw := Grows.width_eq hg' k
        simp only [width, count] at hw hfull ih
        rw [hw, ← IdSpace.length_names, ih, IdSpace.length_names]
        exact hfull
      rcases hid : (r₁.space k).id? n with _ | i
      · rw [IdSpace.getOrCreate_of_full (h₁ k) hid hfull₁ (hfew hid)]
        exact ih
      · rw [IdSpace.getOrCreate_of_id? hid]
        exact ih
    · exact ih

/-- A full space stays full: no later call adds a name to it. -/
theorem Grows.count_of_full {r r' : IdRegistry} (h : r.Numbered) (hg : r.Grows r') {k : IdKind}
    (hfull : 256 ^ r.width k ≤ r.count k + 1) :
    r'.count k = r.count k ∧ r'.width k = r.width k := by
  have hn := Grows.names_of_full h hg hfull
  refine ⟨?_, Grows.width_eq hg k⟩
  simpa [names, count] using congrArg List.length hn

/-- Over every history of fewer than `2 ^ 64` attempts per kind, lookups are inverse maps, the
`j`-th name gets `j + 1` at the kind's width and keeps it, creation fails from the
`256 ^ width`-th name on and moves only the counter, and the kinds are independent. -/
theorem allocation_consistent {r : IdRegistry} (hr : r.Reachable) (k : IdKind) :
    (∀ n i, r.id? k n = some i ↔ r.name? k i = some n) ∧
    (∀ n i, r.id? k n = some i → i.length = r.width k) ∧
    (r.names k).Nodup ∧
    (∀ n i, r.id? k n = some i ↔
      ∃ j, (r.names k)[j]? = some n ∧ i = Bytes.ofNatBE (r.width k) (j + 1)) ∧
    (∀ n i, r.id? k n = some i → ∀ r', r.Grows r' → r'.getOrCreate k n = (r', .ok i)) ∧
    (∀ n, r.id? k n = none → r.count k + 1 < 256 ^ r.width k →
      (r.getOrCreate k n).2 = .ok (Bytes.ofNatBE (r.width k) (r.count k + 1)) ∧
      (r.getOrCreate k n).1.names k = r.names k ++ [n]) ∧
    (∀ n, r.id? k n = none → 256 ^ r.width k ≤ r.count k + 1 → r.attempts k + 1 < 2 ^ 64 →
      (r.getOrCreate k n).2 = .error (.idsExhausted k (r.width k)) ∧
      (r.getOrCreate k n).1.space k = { r.space k with next := (r.space k).next + 1 } ∧
      ∀ r', r.Grows r' → r'.names k = r.names k ∧
        ∀ n', r'.id? k n' = none → r'.attempts k + 1 < 2 ^ 64 →
          (r'.getOrCreate k n').2 = .error (.idsExhausted k (r.width k))) ∧
    (∀ k' n, k' ≠ k → (r.getOrCreate k' n).1.space k = r.space k) := by
  have h := hr.numbered
  have hs := h k
  refine ⟨fun n i => hs.id?_iff_name?, fun n i hi => hs.length_of_mem (hs.id?_eq_some_iff.1 hi),
    hs.nodup, fun n i => hs.id?_eq_some_iff.trans hs.mem_iff,
    fun n i hi r' hg => getOrCreate_of_id? (hg.keeps k n i hi), fun n hn hroom => ?_,
    fun n hn hfull hfew => ?_, fun k' n hk => by rw [space_getOrCreate, if_neg (Ne.symm hk)]⟩
  · have hg : (r.space k).getOrCreate k n = _ := IdSpace.getOrCreate_of_room hs hn hroom
    refine ⟨by rw [getOrCreate_snd, hg]; rfl, ?_⟩
    simp only [names, space_getOrCreate, if_true, hg]
    simp [IdSpace.names]
  · have hg : (r.space k).getOrCreate k n = _ := IdSpace.getOrCreate_of_full hs hn hfull hfew
    refine ⟨by rw [getOrCreate_snd, hg]; rfl, by rw [space_getOrCreate, if_pos rfl, hg], ?_⟩
    intro r' hg'
    obtain ⟨hc, hw⟩ := Grows.count_of_full h hg' hfull
    refine ⟨Grows.names_of_full h hg' hfull, fun n' hn' hfew' => ?_⟩
    have hfull' : 256 ^ (r'.space k).width ≤ (r'.space k).entries.length + 1 := by
      simp only [count, width] at hc hw hfull
      rw [hc, hw]
      exact hfull
    rw [getOrCreate_snd, IdSpace.getOrCreate_of_full ((h.of_grows hg') k) hn' hfull' hfew']
    simp only [width] at hw
    rw [hw]
    rfl

/-- Three-byte spaces after the metric `sys.cpu` got its id. -/
def cpuIds : IdRegistry := ((ofWidths 3 3 3).getOrCreate .metric "sys.cpu").1

theorem cpuIds_reachable : cpuIds.Reachable :=
  ⟨3, 3, 3, by decide, by decide, by decide, grows_getOrCreate _ _ _ fun _ => by decide⟩

theorem cpu_allocation_consistent : cpuIds.Reachable ∧
    ((∀ n i, cpuIds.id? .metric n = some i ↔ cpuIds.name? .metric i = some n) ∧
    (∀ n i, cpuIds.id? .metric n = some i → i.length = cpuIds.width .metric) ∧
    (cpuIds.names .metric).Nodup ∧
    (∀ n i, cpuIds.id? .metric n = some i ↔
      ∃ j, (cpuIds.names .metric)[j]? = some n ∧ i = Bytes.ofNatBE (cpuIds.width .metric) (j + 1)) ∧
    (∀ n i, cpuIds.id? .metric n = some i → ∀ r', cpuIds.Grows r' →
      r'.getOrCreate .metric n = (r', .ok i)) ∧
    (∀ n, cpuIds.id? .metric n = none → cpuIds.count .metric + 1 < 256 ^ cpuIds.width .metric →
      (cpuIds.getOrCreate .metric n).2 =
        .ok (Bytes.ofNatBE (cpuIds.width .metric) (cpuIds.count .metric + 1)) ∧
      (cpuIds.getOrCreate .metric n).1.names .metric = cpuIds.names .metric ++ [n]) ∧
    (∀ n, cpuIds.id? .metric n = none → 256 ^ cpuIds.width .metric ≤ cpuIds.count .metric + 1 →
      cpuIds.attempts .metric + 1 < 2 ^ 64 →
      (cpuIds.getOrCreate .metric n).2 = .error (.idsExhausted .metric (cpuIds.width .metric)) ∧
      (cpuIds.getOrCreate .metric n).1.space .metric =
        { cpuIds.space .metric with next := (cpuIds.space .metric).next + 1 } ∧
      ∀ r', cpuIds.Grows r' → r'.names .metric = cpuIds.names .metric ∧
        ∀ n', r'.id? .metric n' = none → r'.attempts .metric + 1 < 2 ^ 64 →
          (r'.getOrCreate .metric n').2 = .error (.idsExhausted .metric (cpuIds.width .metric))) ∧
    (∀ k' n, k' ≠ .metric → (cpuIds.getOrCreate k' n).1.space .metric = cpuIds.space .metric)) :=
  ⟨cpuIds_reachable, allocation_consistent cpuIds_reachable .metric⟩

end IdRegistry

end SeriesIngest

import Mathlib.Data.List.TakeWhile
import SeriesIngest.Proofs.Import.Loop
import SeriesIngest.Proofs.Number.Decimal

/-!
# Import lines read exactly

A line holds no point exactly when, without the blanks at its ends, it is empty or starts with
`#`. Any other line reads as a point exactly when its words, the runs of non-blank characters,
are at least three; the second is a signed 64-bit integer; the third is a value, an integer when
it has none of `.`, `e` and `E` and a 32-bit float otherwise; and every further word splits at its
first `=` into a non-empty key and a non-empty rest. The point then holds those words' values,
with the tags in the order of their words (`parseImportLine_eq_some_iff`).

Reading undoes writing: a point with an integer value, written as its words `metric timestamp
value key=value …` with any blank runs between them and around them, reads back as itself when
its metric, keys and values are non-empty words, no key holds `=` and the metric does not start
with `#` (`parseImportLine_layOut`). Three facts carry it: the words of such a text are the words
written (`Text.blankWords_layOut`), a decimal integer in range reads back as itself
(`Number.parseInt64_toString`), and a tag word splits back into its key and value.

Main statement: `parseImportLine_exact`.
-/

namespace SeriesIngest

namespace Text

/-- Text made of blank characters only. -/
def Blanks (s : String) : Prop := ∀ c ∈ s.toList, isBlank c = true

/-- A word: text that is not empty and has no blank character. -/
def Word (s : String) : Prop := s ≠ "" ∧ ∀ c ∈ s.toList, isBlank c = false

/-- Words written one after another, with the blank run `gap i` after the `i`-th word and
nothing after the last. -/
def joinWith (gap : Nat → String) : List String → String
  | [] => ""
  | [w] => w
  | w :: ws => w ++ gap 0 ++ joinWith (fun i => gap (i + 1)) ws

/-- Words with blank runs between them, and blanks before the first and after the last. -/
def layOut (lead : String) (gap : Nat → String) (trail : String) (ws : List String) : String :=
  lead ++ joinWith gap ws ++ trail

/-! ### The words of a text -/

/-- Blanks before a word are skipped. -/
theorem blankWordsAux_blanks_append {bs : List Char} (hbs : ∀ c ∈ bs, isBlank c = true)
    (cs : List Char) : blankWordsAux (bs ++ cs) [] = blankWordsAux cs [] := by
  induction bs with
  | nil => rfl
  | cons b bs ih =>
    simp only [List.mem_cons, forall_eq_or_imp] at hbs
    simp only [List.cons_append, blankWordsAux, hbs.1, if_true, List.isEmpty_nil]
    exact ih hbs.2

/-- Blanks end the word being read and add no word. -/
theorem blankWordsAux_blanks {bs : List Char} (hbs : ∀ c ∈ bs, isBlank c = true)
    (cur : List Char) : blankWordsAux bs cur = blankWordsAux [] cur := by
  induction bs generalizing cur with
  | nil => rfl
  | cons b bs ih =>
    simp only [List.mem_cons, forall_eq_or_imp] at hbs
    cases cur with
    | nil => simp [blankWordsAux, hbs.1, ih hbs.2]
    | cons c cur => simp [blankWordsAux, hbs.1, ih hbs.2 []]

/-- Blanks after the last word end it and add no word. -/
theorem blankWordsAux_append_blanks {bs : List Char} (hbs : ∀ c ∈ bs, isBlank c = true)
    (cs cur : List Char) : blankWordsAux (cs ++ bs) cur = blankWordsAux cs cur := by
  induction cs generalizing cur with
  | nil => exact blankWordsAux_blanks hbs cur
  | cons c cs ih =>
    simp only [List.cons_append, blankWordsAux, ih]

/-- The characters of a word are added to the word being read. -/
theorem blankWordsAux_word_append {w : List Char} (hw : ∀ c ∈ w, isBlank c = false)
    (cs cur : List Char) : blankWordsAux (w ++ cs) cur = blankWordsAux cs (w.reverse ++ cur) := by
  induction w generalizing cur with
  | nil => rfl
  | cons c w ih =>
    simp only [List.mem_cons, forall_eq_or_imp] at hw
    simp only [List.cons_append, blankWordsAux, hw.1, Bool.false_eq_true, if_false,
      ih hw.2, List.reverse_cons, List.append_assoc, List.nil_append]

/-- Words written with non-empty blank runs between them read back as themselves. -/
theorem blankWordsAux_joinWith {ws : List String} (hws : ∀ w ∈ ws, Word w) {gap : Nat → String}
    (hgap : ∀ i, gap i ≠ "" ∧ Blanks (gap i)) :
    blankWordsAux (joinWith gap ws).toList [] = ws.map String.toList := by
  induction ws generalizing gap with
  | nil => rfl
  | cons w ws ih =>
    obtain ⟨hne, hw⟩ := hws w (List.mem_cons_self ..)
    have hw' : w.toList.reverse ≠ [] := by simpa [String.toList_eq_nil_iff] using hne
    cases ws with
    | nil =>
      have hread := blankWordsAux_word_append hw [] []
      rw [List.append_nil, List.append_nil] at hread
      simp [joinWith, hread, blankWordsAux, hne]
    | cons w' ws =>
      -- the word ends at the first blank of the run after it; the rest of the run is skipped
      obtain ⟨b, bs, hg⟩ := List.exists_cons_of_ne_nil (mt String.toList_eq_nil_iff.1 (hgap 0).1)
      have hb : isBlank b = true := (hgap 0).2 b (by simp [hg])
      have hbs : ∀ c ∈ bs, isBlank c = true := fun c hc => (hgap 0).2 c (by simp [hg, hc])
      show blankWordsAux (w ++ gap 0 ++ joinWith (fun i => gap (i + 1)) (w' :: ws)).toList [] = _
      rw [String.toList_append, String.toList_append, hg, List.append_assoc,
        blankWordsAux_word_append hw, List.append_nil, List.cons_append, blankWordsAux,
        if_pos hb, if_neg (by simpa using hw'), List.reverse_reverse,
        blankWordsAux_blanks_append hbs,
        ih (fun v hv => hws v (List.mem_cons_of_mem _ hv)) (fun i => hgap (i + 1))]
      rfl

/-- The words of a text laid out from words are those words. -/
theorem blankWords_layOut {ws : List String} (hws : ∀ w ∈ ws, Word w) {lead trail : String}
    (hlead : Blanks lead) (htrail : Blanks trail) {gap : Nat → String}
    (hgap : ∀ i, gap i ≠ "" ∧ Blanks (gap i)) :
    blankWords (layOut lead gap trail ws) = ws := by
  rw [blankWords, layOut, String.toList_append, String.toList_append,
    List.append_assoc, blankWordsAux_blanks_append hlead, blankWordsAux_append_blanks htrail,
    blankWordsAux_joinWith hws hgap, List.map_map]
  conv_rhs => rw [← List.map_id ws]
  exact List.map_congr_left fun w _ => String.ofList_toList

/-! ### Trimming -/

/-- A text is its trimmed text with blanks before it and after it. -/
theorem toList_trimBlank (s : String) :
    ∃ pre post, (∀ c ∈ pre, isBlank c = true) ∧ (∀ c ∈ post, isBlank c = true) ∧
      s.toList = pre ++ (trimBlank s).toList ++ post := by
  refine ⟨s.toList.takeWhile isBlank,
    ((s.toList.dropWhile isBlank).reverse.takeWhile isBlank).reverse,
    fun c hc => List.mem_takeWhile_imp hc,
    fun c hc => List.mem_takeWhile_imp (List.mem_reverse.1 hc), ?_⟩
  rw [trimBlank, String.toList_ofList, List.append_assoc, ← List.reverse_append,
    List.takeWhile_append_dropWhile, List.reverse_reverse, List.takeWhile_append_dropWhile]

/-- Trimming keeps the words. -/
theorem blankWords_trimBlank (s : String) : blankWords (trimBlank s) = blankWords s := by
  obtain ⟨pre, post, hpre, hpost, hs⟩ := toList_trimBlank s
  rw [blankWords, blankWords, hs, List.append_assoc, blankWordsAux_blanks_append hpre,
    blankWordsAux_append_blanks hpost]

/-- A trimmed text starts with a character that is not blank. -/
theorem trimBlank_head {s : String} {c : Char} {cs : List Char}
    (h : (trimBlank s).toList = c :: cs) : isBlank c = false := by
  -- the trimmed text is a prefix of the text after its leading blanks
  obtain ⟨t, hd⟩ : ∃ t, s.toList.dropWhile isBlank = c :: t := by
    rw [trimBlank, String.toList_ofList] at h
    refine ⟨cs ++ ((s.toList.dropWhile isBlank).reverse.takeWhile isBlank).reverse, ?_⟩
    rw [← List.cons_append, ← h, ← List.reverse_append, List.takeWhile_append_dropWhile,
      List.reverse_reverse]
  have hhead := List.head_dropWhile_not isBlank (l := s.toList) (by simp [hd])
  simpa [hd] using hhead

/-- The word being read is the start of the first word. -/
theorem blankWordsAux_head (cs : List Char) {cur : List Char} (hcur : cur ≠ []) :
    ∃ u rest, blankWordsAux cs cur = (cur.reverse ++ u) :: rest := by
  induction cs generalizing cur with
  | nil => exact ⟨[], [], by simp [blankWordsAux, hcur]⟩
  | cons c cs ih =>
    by_cases hc : isBlank c = true
    · exact ⟨[], blankWordsAux cs [], by simp [blankWordsAux, hc, hcur]⟩
    · obtain ⟨u, rest, h⟩ := ih (List.cons_ne_nil c cur)
      exact ⟨c :: u, rest, by simp [blankWordsAux, hc, h]⟩

/-- A text with words is not empty once trimmed, and it starts as its first word starts. -/
theorem trimBlank_of_blankWords {s w : String} {ws : List String} (h : blankWords s = w :: ws) :
    trimBlank s ≠ "" ∧ ∃ c u cs, (trimBlank s).toList = c :: cs ∧ w.toList = c :: u := by
  rw [← blankWords_trimBlank] at h
  cases ht : (trimBlank s).toList with
  | nil =>
    rw [blankWords, ht] at h
    exact absurd h (by simp [blankWordsAux])
  | cons c cs =>
    have hc := trimBlank_head ht
    obtain ⟨u, rest, hread⟩ := blankWordsAux_head cs (List.cons_ne_nil c [])
    rw [blankWords, ht, blankWordsAux, if_neg (by simp [hc]), hread, List.map_cons,
      List.cons.injEq] at h
    refine ⟨fun he => by simp [he] at ht, c, u, cs, rfl, ?_⟩
    rw [← h.1, String.toList_ofList]
    rfl

/-- Whether a text starts with `#` is read off its first character. -/
theorem startsWith_hash {s : String} {c : Char} {cs : List Char} (h : s.toList = c :: cs) :
    s.startsWith "#" = decide (c = '#') := by
  rw [Bool.eq_iff_iff, String.startsWith_string_iff, h]
  simp [eq_comm]

/-- A text with words, trimmed, starts with `#` exactly when its first word does. -/
theorem startsWith_trimBlank {s w : String} {ws : List String} (h : blankWords s = w :: ws) :
    (trimBlank s).startsWith "#" = w.startsWith "#" := by
  obtain ⟨-, c, u, cs, ht, hw⟩ := trimBlank_of_blankWords h
  rw [startsWith_hash ht, startsWith_hash hw]

end Text

/-! ### Tag words and value words -/

/-- A tag word and its tag: the word splits at its first `=` into a non-empty key and a
non-empty rest, which may hold further `=`. -/
def TagWord (w : String) (t : Tag) : Prop :=
  ∃ k r, w.toList = k ++ '=' :: r ∧ '=' ∉ k ∧ k ≠ [] ∧ r ≠ [] ∧
    t = ⟨String.ofList k, String.ofList r⟩

/-- A value word and its value: a signed 64-bit integer when the word has none of `.`, `e` and
`E`, and a 32-bit float otherwise. -/
inductive ValueWord (w : String) : DataValue → Prop
  | integer {n : Int} : '.' ∉ w.toList → 'e' ∉ w.toList → 'E' ∉ w.toList →
      Number.parseInt64 w = .ok n → ValueWord w (.integer n)
  | float {x : Float.Binary32} : '.' ∈ w.toList ∨ 'e' ∈ w.toList ∨ 'E' ∈ w.toList →
      Float.Binary32.parse w = .ok x → ValueWord w (.float x)

/-- Splitting at the first `=` of a word whose key holds none. -/
theorem takeWhile_dropWhile_append_eq_cons {k r : List Char} (hk : '=' ∉ k) :
    (k ++ '=' :: r).takeWhile (· ≠ '=') = k ∧ (k ++ '=' :: r).dropWhile (· ≠ '=') = '=' :: r := by
  have hall : ∀ c ∈ k, decide (c ≠ '=') = true := fun c hc => by
    simpa using fun he : c = '=' => hk (he ▸ hc)
  rw [List.takeWhile_append_of_pos hall, List.dropWhile_append_of_pos hall]
  simp

theorem tagOfWord_eq_ok_iff (w : String) (t : Tag) : tagOfWord w = .ok t ↔ TagWord w t := by
  constructor
  · intro h
    unfold tagOfWord at h
    extract_lets cs key at h
    split at h
    · next x value hdrop =>
      have hx : x = '=' := by
        have hhead := List.head_dropWhile_not (fun c => decide (c ≠ '=')) (l := cs)
          (by rw [hdrop]; exact List.cons_ne_nil _ _)
        simp only [hdrop, List.head_cons, decide_eq_false_iff_not, ne_eq, not_not] at hhead
        exact hhead
      split at h
      · cases h
      · next hne =>
        cases h
        obtain ⟨hkey, hvalue⟩ : key ≠ [] ∧ value ≠ [] := by simpa [List.isEmpty_iff] using hne
        refine ⟨key, value, ?_, fun hm => ?_, hkey, hvalue, rfl⟩
        · show cs = _
          rw [← hx, ← hdrop, List.takeWhile_append_dropWhile]
        · simpa using List.mem_takeWhile_imp hm
    · cases h
  · rintro ⟨k, r, hw, hk, hkne, hrne, rfl⟩
    obtain ⟨htake, hdrop⟩ := takeWhile_dropWhile_append_eq_cons (r := r) hk
    dsimp only [tagOfWord]
    rw [hw, hdrop, htake]
    dsimp only
    rw [if_neg (by simp [List.isEmpty_iff, hkne, hrne])]

theorem looksLikeInteger_iff (s : String) :
    DataValue.looksLikeInteger s = true ↔ '.' ∉ s.toList ∧ 'e' ∉ s.toList ∧ 'E' ∉ s.toList := by
  simp only [DataValue.looksLikeInteger, Bool.not_eq_true', List.any_eq_false, Bool.or_eq_true,
    decide_eq_true_eq, not_or]
  constructor
  · intro h
    exact ⟨fun hm => (h _ hm).1.1 rfl, fun hm => (h _ hm).1.2 rfl, fun hm => (h _ hm).2 rfl⟩
  · rintro ⟨h1, h2, h3⟩ c hc
    exact ⟨⟨fun he => h1 (he ▸ hc), fun he => h2 (he ▸ hc)⟩, fun he => h3 (he ▸ hc)⟩

namespace ValueWord

variable {w : String} {v : DataValue}

/-- A word without `.`, `e` and `E` is a value word of exactly the integer it reads as. -/
theorem iff_integer (h1 : '.' ∉ w.toList) (h2 : 'e' ∉ w.toList) (h3 : 'E' ∉ w.toList) :
    ValueWord w v ↔ ∃ n, Number.parseInt64 w = .ok n ∧ v = .integer n := by
  constructor
  · rintro (⟨-, -, -, hp⟩ | ⟨hm, -⟩)
    · exact ⟨_, hp, rfl⟩
    · exact absurd hm (by simp [h1, h2, h3])
  · rintro ⟨n, hp, rfl⟩
    exact .integer h1 h2 h3 hp

/-- A word with one of `.`, `e` and `E` is a value word of exactly the float it reads as. -/
theorem iff_float (hm : '.' ∈ w.toList ∨ 'e' ∈ w.toList ∨ 'E' ∈ w.toList) :
    ValueWord w v ↔ ∃ x, Float.Binary32.parse w = .ok x ∧ v = .float x := by
  constructor
  · rintro (⟨h1, h2, h3, -⟩ | ⟨-, hp⟩)
    · exact absurd hm (by simp [h1, h2, h3])
    · exact ⟨_, hp, rfl⟩
  · rintro ⟨x, hp, rfl⟩
    exact .float hm hp

end ValueWord

theorem readValue_eq_ok_iff (w : String) (v : DataValue) : readValue w = .ok v ↔ ValueWord w v := by
  unfold readValue DataValue.parse
  by_cases hl : DataValue.looksLikeInteger w = true
  · obtain ⟨h1, h2, h3⟩ := (looksLikeInteger_iff w).1 hl
    rw [if_pos hl, ValueWord.iff_integer h1 h2 h3]
    cases Number.parseInt64 w <;> simp [eq_comm]
  · have hm : '.' ∈ w.toList ∨ 'e' ∈ w.toList ∨ 'E' ∈ w.toList := by
      by_contra hn
      simp only [not_or] at hn
      exact hl ((looksLikeInteger_iff w).2 hn)
    rw [if_neg hl, ValueWord.iff_float hm]
    cases Float.Binary32.parse w <;> simp [eq_comm]

/-- A fallible reading of each element of a list succeeds exactly when it succeeds on every
element, with the results in order. -/
theorem mapM_eq_ok_iff {α β ε : Type} (f : α → Except ε β) (as : List α) (bs : List β) :
    as.mapM f = .ok bs ↔ List.Forall₂ (fun a b => f a = .ok b) as bs := by
  induction as generalizing bs with
  | nil => cases bs <;> simp [pure, Except.pure]
  | cons a as ih =>
    rw [List.mapM_cons]
    cases bs with
    | nil =>
      cases f a <;> cases as.mapM f <;> simp [bind, Except.bind, pure, Except.pure]
    | cons b bs =>
      rw [List.forall₂_cons, ← ih]
      cases f a <;> cases as.mapM f <;> simp [bind, Except.bind, pure, Except.pure]

theorem mapM_tagOfWord_eq_ok_iff (ws : List String) (ts : List Tag) :
    ws.mapM tagOfWord = .ok ts ↔ List.Forall₂ TagWord ws ts := by
  simp only [mapM_eq_ok_iff, tagOfWord_eq_ok_iff]

/-! ### Reading a line -/

theorem parseImportLine_eq_ok_none_iff (line : String) :
    parseImportLine line = .ok none ↔
      Text.trimBlank line = "" ∨ (Text.trimBlank line).startsWith "#" = true := by
  rw [Import.parseImportLine_eq_none_iff, Import.holdsPoint]
  simp only [Bool.not_eq_false', Bool.or_eq_true, String.isEmpty_iff]

/-- A line of three words or more that is no comment reads as the point of its fields. -/
theorem parseImportLine_of_words {line metric ts value : String} {rest : List String}
    (hw : Text.blankWords line = metric :: ts :: value :: rest) (p : DataPoint) :
    parseImportLine line = .ok (some p) ↔
      (Text.trimBlank line).startsWith "#" = false ∧ p.metric = metric ∧
        Number.parseInt64 ts = .ok p.timestamp ∧ readValue value = .ok p.value ∧
        rest.mapM tagOfWord = .ok p.tags.toList := by
  have hne := (Text.trimBlank_of_blankWords hw).1
  unfold parseImportLine
  by_cases hc : (Text.trimBlank line).startsWith "#" = true
  · rw [if_pos (.inr hc)]
    simp [hc]
  · rw [if_neg (by simp [String.isEmpty_iff, hne, hc]), Text.blankWords_trimBlank, hw]
    obtain ⟨pm, pt, pv, ⟨ptags⟩⟩ := p
    -- the fields are read in turn, and the first that fails is the error
    cases hts : Number.parseInt64 ts with
    | error e => simp [bind, Except.bind, hts]
    | ok t =>
      cases hv : readValue value with
      | error e => simp [bind, Except.bind, pure, Except.pure, hts, hv]
      | ok v =>
        cases hr : rest.mapM tagOfWord with
        | error e => simp [bind, Except.bind, pure, Except.pure, hts, hv, hr]
        | ok tags => simp [bind, Except.bind, pure, Except.pure, hc, hts, hv, hr, eq_comm]

/-- A line of fewer than three words reads as no point. -/
theorem parseImportLine_ne_some {line : String}
    (hw : ∀ metric ts value rest, Text.blankWords line ≠ metric :: ts :: value :: rest)
    (p : DataPoint) : parseImportLine line ≠ .ok (some p) := by
  unfold parseImportLine
  by_cases hc : (Text.trimBlank line).isEmpty = true ∨ (Text.trimBlank line).startsWith "#" = true
  · rw [if_pos hc]
    simp
  · rw [if_neg hc, Text.blankWords_trimBlank]
    split
    · next metric ts value rest hwords => exact absurd hwords (hw metric ts value rest)
    · simp

theorem parseImportLine_eq_some_iff (line : String) (p : DataPoint) :
    parseImportLine line = .ok (some p) ↔
      (Text.trimBlank line ≠ "" ∧ (Text.trimBlank line).startsWith "#" = false) ∧
      ∃ ts value rest, Text.blankWords line = p.metric :: ts :: value :: rest ∧
        Number.parseInt64 ts = .ok p.timestamp ∧ ValueWord value p.value ∧
        List.Forall₂ TagWord rest p.tags.toList := by
  by_cases hw : ∃ metric ts value rest, Text.blankWords line = metric :: ts :: value :: rest
  · obtain ⟨metric, ts, value, rest, hw⟩ := hw
    have hne := (Text.trimBlank_of_blankWords hw).1
    rw [parseImportLine_of_words hw, readValue_eq_ok_iff, mapM_tagOfWord_eq_ok_iff]
    simp only [hw, List.cons.injEq]
    constructor
    · rintro ⟨hc, rfl, hts, hv, htags⟩
      exact ⟨⟨hne, hc⟩, ts, value, rest, ⟨rfl, rfl, rfl, rfl⟩, hts, hv, htags⟩
    · rintro ⟨⟨-, hc⟩, ts', value', rest', ⟨hm, rfl, rfl, rfl⟩, hts, hv, htags⟩
      exact ⟨hc, hm.symm, hts, hv, htags⟩
  · have hnone := parseImportLine_ne_some (fun m t v r h => hw ⟨m, t, v, r, h⟩) p
    simp only [hnone, false_iff, not_and]
    rintro - ⟨ts, value, rest, h, -⟩
    exact hw ⟨_, _, _, _, h⟩

/-! ### Writing a point and reading it back -/

/-- The words of a point: its metric, its timestamp, its value and each tag as `key=value`. -/
def DataPoint.words (p : DataPoint) : List String :=
  p.metric :: toString p.timestamp :: p.value.display :: p.tags.toList.map Tag.text

namespace Text

theorem isBlank_of_isDigit {c : Char} (h : c.isDigit = true) : isBlank c = false := by
  obtain ⟨-, h48, h57⟩ := Number.digit_bounds h
  simp only [isBlank, Bool.or_eq_false_iff, Bool.and_eq_false_iff, decide_eq_false_iff_not,
    beq_eq_false_iff_ne, ne_eq]
  omega

/-- An integer's text is a word. -/
theorem word_toString (n : Int) : Word (toString n) := by
  refine ⟨Number.toString_ne_empty n, fun c hc => ?_⟩
  rcases Number.mem_toString hc with rfl | h
  · rfl
  · exact isBlank_of_isDigit h

/-- A tag of words is written as a word. -/
theorem word_text {t : Tag} (hk : Word t.key) (hv : Word t.value) : Word t.text := by
  refine ⟨fun h => hk.1 ?_, fun c hc => ?_⟩
  · have h' := congrArg String.toList h
    simp only [Tag.text, String.toList_append, String.toList_empty, List.append_eq_nil_iff] at h'
    exact String.toList_eq_nil_iff.1 h'.1.1
  · simp only [Tag.text, String.toList_append, List.mem_append] at hc
    rcases hc with (hc | hc) | hc
    · exact hk.2 c hc
    · have heq : c = '=' := by simpa using hc
      rw [heq]
      rfl
    · exact hv.2 c hc

end Text

/-- Of an integer's text, no character is one that is neither `-` nor a digit. -/
theorem not_mem_toString {n : Int} {d : Char} (hd : d ≠ '-') (hdigit : d.isDigit = false) :
    d ∉ (toString n).toList := by
  intro h
  rcases Number.mem_toString h with h | h
  · exact hd h
  · rw [hdigit] at h
    cases h

/-- A signed 64-bit integer's text is a value word of it. -/
theorem valueWord_toString {n : Int} (lo : Number.int64Min ≤ n) (hi : n ≤ Number.int64Max) :
    ValueWord (toString n) (.integer n) :=
  .integer (not_mem_toString (by decide) (by decide)) (not_mem_toString (by decide) (by decide))
    (not_mem_toString (by decide) (by decide)) (Number.parseInt64_toString lo hi)

/-- A tag with a key and a value, the key without `=`, is written as a tag word of itself. -/
theorem tagWord_text {t : Tag} (hk : t.key ≠ "") (heq : '=' ∉ t.key.toList) (hv : t.value ≠ "") :
    TagWord t.text t := by
  refine ⟨t.key.toList, t.value.toList, by simp [Tag.text], heq,
    mt String.toList_eq_nil_iff.1 hk, mt String.toList_eq_nil_iff.1 hv, ?_⟩
  simp only [String.ofList_toList]

/-- A point with an integer value, its metric, keys and values words, no key holding `=` and the
metric not starting with `#`, written as its words with blank runs between them and around them,
reads back as itself. -/
theorem parseImportLine_layOut {p : DataPoint} {v : Int} (hv : p.value = .integer v)
    (hts : Number.int64Min ≤ p.timestamp ∧ p.timestamp ≤ Number.int64Max)
    (hvr : Number.int64Min ≤ v ∧ v ≤ Number.int64Max)
    (hmetric : Text.Word p.metric) (hhash : p.metric.startsWith "#" = false)
    (htags : ∀ t ∈ p.tags.toList, Text.Word t.key ∧ '=' ∉ t.key.toList ∧ Text.Word t.value)
    {lead trail : String} (hlead : Text.Blanks lead) (htrail : Text.Blanks trail)
    {gap : Nat → String} (hgap : ∀ i, gap i ≠ "" ∧ Text.Blanks (gap i)) :
    parseImportLine (Text.layOut lead gap trail p.words) = .ok (some p) := by
  have hwords : ∀ w ∈ p.words, Text.Word w := by
    simp only [DataPoint.words, hv, DataValue.display, List.mem_cons, List.mem_map]
    rintro w (rfl | rfl | rfl | ⟨t, ht, rfl⟩)
    · exact hmetric
    · exact Text.word_toString _
    · exact Text.word_toString _
    · obtain ⟨hk, -, hval⟩ := htags t ht
      exact Text.word_text hk hval
  have hread := Text.blankWords_layOut hwords hlead htrail hgap
  rw [parseImportLine_eq_some_iff]
  refine ⟨⟨(Text.trimBlank_of_blankWords hread).1, (Text.startsWith_trimBlank hread).trans hhash⟩,
    _, _, _, hread, Number.parseInt64_toString hts.1 hts.2, ?_, ?_⟩
  · rw [hv]
    exact valueWord_toString hvr.1 hvr.2
  · rw [List.forall₂_map_left_iff, List.forall₂_same]
    intro t ht
    obtain ⟨hk, heq, hval⟩ := htags t ht
    exact tagWord_text hk.1 heq hval.1

/-- A point laid out with a tab before it and two blanks between its words reads back. -/
example : parseImportLine (Text.layOut "\t" (fun _ => "  ") ""
    (DataPoint.words ⟨"sys.cpu.user", 1356998400, .integer 42, ⟨[⟨"host", "web01"⟩]⟩⟩)) =
    .ok (some ⟨"sys.cpu.user", 1356998400, .integer 42, ⟨[⟨"host", "web01"⟩]⟩⟩) :=
  parseImportLine_layOut rfl (by decide) (v := 42) (by decide) (by simp [Text.Word, Text.isBlank])
    (by decide +kernel) (by simp [Text.Word, Text.isBlank]) (by simp [Text.Blanks, Text.isBlank])
    (by simp [Text.Blanks]) (fun _ => by simp [Text.Blanks, Text.isBlank])

/-- A tag's value may hold `=`: the key ends at the first one. -/
example : parseImportLine "  sys.cpu.user 1356998400 42 host=web01 opts=a=b " =
    .ok (some ⟨"sys.cpu.user", 1356998400, .integer 42,
      ⟨[⟨"host", "web01"⟩, ⟨"opts", "a=b"⟩]⟩⟩) := by
  decide +kernel

/-- An import line reads as no point exactly when it is blank or a comment, and as a point exactly
when its words have the point's shape; every integer point written with any blanks reads back. -/
theorem parseImportLine_exact :
    (∀ line, parseImportLine line = .ok none ↔
      Text.trimBlank line = "" ∨ (Text.trimBlank line).startsWith "#" = true) ∧
    (∀ line p, parseImportLine line = .ok (some p) ↔
      (Text.trimBlank line ≠ "" ∧ (Text.trimBlank line).startsWith "#" = false) ∧
      ∃ ts value rest, Text.blankWords line = p.metric :: ts :: value :: rest ∧
        Number.parseInt64 ts = .ok p.timestamp ∧ ValueWord value p.value ∧
        List.Forall₂ TagWord rest p.tags.toList) ∧
    ∀ (p : DataPoint) (v : Int), p.value = .integer v →
      Number.int64Min ≤ p.timestamp ∧ p.timestamp ≤ Number.int64Max →
      Number.int64Min ≤ v ∧ v ≤ Number.int64Max →
      Text.Word p.metric → p.metric.startsWith "#" = false →
      (∀ t ∈ p.tags.toList, Text.Word t.key ∧ '=' ∉ t.key.toList ∧ Text.Word t.value) →
      ∀ (lead trail : String) (gap : Nat → String), Text.Blanks lead → Text.Blanks trail →
        (∀ i, gap i ≠ "" ∧ Text.Blanks (gap i)) →
        parseImportLine (Text.layOut lead gap trail p.words) = .ok (some p) :=
  ⟨parseImportLine_eq_ok_none_iff, parseImportLine_eq_some_iff,
    fun _ _ hv hts hvr hmetric hhash htags _ _ _ hlead htrail hgap =>
      parseImportLine_layOut hv hts hvr hmetric hhash htags hlead htrail hgap⟩

end SeriesIngest

import MetricStore.Proofs.Except
import MetricStore.Series

/-!
Which series survive their text.

A text is read by its tokens alone, and the text of a series joins its parts by single spaces
(`toList_text`).  A series is read from just those texts whose tokens are its parts, and only if it
is well formed (`parse_eq_ok_iff`); as tokens have no space in them, no text of another series can be
mistaken for it.  Main statement:

* `parse_text_iff_wellFormed`: a series is read back from its own text if and only if it is well
  formed, and all series that are read are.
-/

namespace MetricStore.Series

/-! ### Tokens -/

/-- A piece that can be a token: it is not empty and no space cuts it. -/
def IsToken (piece : List Char) : Prop := piece ≠ [] ∧ ' ' ∉ piece

variable {piece chars : List Char} {pieces : List (List Char)}

theorem notMem_of_mem_splitOn (h : piece ∈ chars.splitOn ' ') : ' ' ∉ piece := by
  induction chars generalizing piece with
  | nil =>
    rw [List.splitOn_nil, List.mem_singleton] at h
    rw [h]
    exact List.not_mem_nil
  | cons c rest ih =>
    rw [List.splitOn_cons_eq_if_modifyHead] at h
    split at h
    · obtain rfl | h := List.mem_cons.mp h
      · exact List.not_mem_nil
      · exact ih h
    · next hc =>
      -- the first piece is the one that the character is put in front of
      obtain ⟨first, others, hsplit⟩ := List.exists_cons_of_ne_nil (List.splitOn_ne_nil ' ' rest)
      rw [hsplit, List.modifyHead_cons] at h
      obtain rfl | h := List.mem_cons.mp h
      · have hfirst := ih (hsplit ▸ List.mem_cons_self)
        have hne : ' ' ≠ c := fun heq => hc (beq_iff_eq.mpr heq.symm)
        exact List.not_mem_cons_of_ne_of_not_mem hne hfirst
      · exact ih (hsplit ▸ List.mem_cons_of_mem _ h)

theorem isToken_of_mem_tokens (h : piece ∈ tokens chars) : IsToken piece := by
  obtain ⟨hmem, hne⟩ := List.mem_filter.mp h
  exact ⟨by simpa using hne, notMem_of_mem_splitOn hmem⟩

theorem tokens_append_space (left right : List Char) :
    tokens (left ++ ' ' :: right) = tokens left ++ tokens right := by
  rw [tokens, List.splitOn_append_cons_self, List.filter_append, tokens, tokens]

theorem tokens_of_isToken (h : IsToken piece) : tokens piece = [piece] := by
  rw [tokens, List.splitOn_eq_singleton h.2]
  exact List.filter_cons_of_pos (by simpa using h.1)

/-- Tokens joined by single spaces are read as they were. -/
theorem tokens_intercalate (h : ∀ piece ∈ pieces, IsToken piece) :
    tokens ([' '].intercalate pieces) = pieces := by
  induction pieces with
  | nil => rfl
  | cons piece rest ih =>
    obtain ⟨hpiece, hrest⟩ := List.forall_mem_cons.mp h
    cases rest with
    | nil =>
      rw [List.intercalate_singleton]
      exact tokens_of_isToken hpiece
    | cons next others =>
      rw [List.intercalate_cons_cons, List.append_assoc, List.singleton_append,
        tokens_append_space, tokens_of_isToken hpiece, ih hrest, List.singleton_append]

/-! ### Tags -/

/-- The key of a tag can be told from its token: it is not empty and no colon cuts it. -/
def HasPlainKey (t : String × String) : Prop := t.1 ≠ "" ∧ ':' ∉ t.1.toList

variable {t : String × String} {token : List Char}

theorem cutTag_tagToken (h : ':' ∉ t.1.toList) : cutTag (tagToken t) = t := by
  have hkey : ∀ c ∈ t.1.toList, decide (c ≠ ':') = true := by
    intro c hc
    exact decide_eq_true fun heq => h (heq ▸ hc)
  rw [cutTag, tagToken, List.takeWhile_append_of_pos hkey, List.dropWhile_append_of_pos hkey]
  simp

/-- A token with a colon is that of the tag which its first colon cuts it into. -/
theorem eq_tagToken_of_mem (h : ':' ∈ token) : ∃ t, token = tagToken t ∧ ':' ∉ t.1.toList := by
  obtain ⟨key, value, rfl, hkey⟩ := List.eq_append_cons_of_mem h
  refine ⟨(String.ofList key, String.ofList value), ?_, ?_⟩
  · rw [tagToken, String.toList_ofList, String.toList_ofList]
  · rw [String.toList_ofList]
    exact hkey

theorem isTag_tagToken_iff (h : ':' ∉ t.1.toList) : IsTag (tagToken t) ↔ t.1 ≠ "" := by
  have hmem : ':' ∈ tagToken t := List.mem_append_right _ List.mem_cons_self
  rw [IsTag, and_iff_right hmem, tagToken, ne_eq, ne_eq, ← String.toList_eq_nil_iff]
  cases hkey : t.1.toList with
  | nil => simp
  | cons c rest =>
    have hc : c ≠ ':' := fun heq => h (hkey ▸ heq ▸ List.mem_cons_self)
    simpa using hc

theorem readTag_eq_ok_iff {text : String} :
    readTag text token = .ok t ↔ HasPlainKey t ∧ tagToken t = token := by
  rw [readTag]
  split
  · next h =>
    obtain ⟨u, rfl, hu⟩ := eq_tagToken_of_mem h.1
    rw [cutTag_tagToken hu, Except.ok.injEq]
    constructor
    · rintro rfl
      exact ⟨⟨(isTag_tagToken_iff hu).mp h, hu⟩, rfl⟩
    · rintro ⟨ht, heq⟩
      rw [← cutTag_tagToken hu, ← heq, cutTag_tagToken ht.2]
  · next h =>
    refine iff_of_false nofun ?_
    rintro ⟨ht, rfl⟩
    exact h ((isTag_tagToken_iff ht.2).mpr ht.1)

theorem mapM_readTag_eq_ok_iff {text : String} {tags : List (String × String)} :
    pieces.mapM (readTag text) = .ok tags ↔
      (∀ t ∈ tags, HasPlainKey t) ∧ tags.map tagToken = pieces := by
  rw [Except.mapM_eq_ok_iff]
  induction tags generalizing pieces with
  | nil =>
    rw [List.map_nil, List.map_nil, List.map_eq_nil_iff, eq_comm]
    exact (and_iff_right fun t ht => absurd ht List.not_mem_nil).symm
  | cons t tags ih =>
    cases pieces with
    | nil => exact iff_of_false (List.cons_ne_nil _ _).symm fun h => List.cons_ne_nil _ _ h.2
    | cons piece pieces =>
      rw [List.map_cons, List.map_cons, List.map_cons, List.cons.injEq, List.cons.injEq,
        readTag_eq_ok_iff, ih, List.forall_mem_cons]
      exact and_and_and_comm

/-! ### The parts of a series -/

/-- What the text of a series is joined of. -/
def parts (s : Series) : List (List Char) := s.tags.map tagToken ++ [s.name.toList]

variable {s : Series}

/-- The text of a series is its parts with single spaces between them. -/
theorem toList_text (s : Series) : s.text.toList = [' '].intercalate s.parts := by
  rw [text, String.toList_ofList, parts]
  induction s.tags with
  | nil => exact List.intercalate_singleton.symm
  | cons t tags ih =>
    obtain ⟨next, others, hnext⟩ := List.exists_cons_of_ne_nil
      (List.append_ne_nil_of_right_ne_nil (tags.map tagToken) (List.cons_ne_nil s.name.toList []))
    rw [List.flatMap_cons, List.append_assoc, ih, List.map_cons, List.cons_append, hnext,
      List.intercalate_cons_cons, List.append_assoc]

theorem isToken_tagToken_iff :
    IsToken (tagToken t) ↔ ' ' ∉ t.1.toList ∧ ' ' ∉ t.2.toList := by
  rw [IsToken, tagToken]
  simp

/-- A series is well formed if its parts are tokens, and its name and its tags can be told by
them. -/
theorem wellFormed_iff :
    s.WellFormed ↔ (∀ piece ∈ s.parts, IsToken piece) ∧
      (∀ t ∈ s.tags, HasPlainKey t) ∧ IsName s.name.toList := by
  have hname : s.name ≠ "" ↔ s.name.toList ≠ [] := not_congr String.toList_eq_nil_iff.symm
  constructor
  · intro h
    refine ⟨?_, fun t ht => ⟨h.key_ne t ht, fun hc => (h.key_plain t ht _ hc).2 rfl⟩,
      fun hc => (h.name_plain _ hc).2 rfl⟩
    intro piece hpiece
    obtain hpiece | hpiece := List.mem_append.mp hpiece
    · obtain ⟨t, ht, rfl⟩ := List.mem_map.mp hpiece
      exact isToken_tagToken_iff.mpr
        ⟨fun hc => (h.key_plain t ht _ hc).1 rfl, fun hc => h.value_plain t ht _ hc rfl⟩
    · rw [List.mem_singleton.mp hpiece]
      exact ⟨hname.mp h.name_ne, fun hc => (h.name_plain _ hc).1 rfl⟩
  · rintro ⟨hparts, htags, hplain⟩
    obtain ⟨hne, hspace⟩ := hparts _ (List.mem_append_right _ (List.mem_singleton_self _))
    have htokens : ∀ t ∈ s.tags, ' ' ∉ t.1.toList ∧ ' ' ∉ t.2.toList := fun t ht =>
      isToken_tagToken_iff.mp (hparts _ (List.mem_append_left _ (List.mem_map_of_mem ht)))
    exact
      { name_ne := hname.mpr hne
        name_plain := fun c hc => ⟨fun heq => hspace (heq ▸ hc), fun heq => hplain (heq ▸ hc)⟩
        key_ne := fun t ht => (htags t ht).1
        key_plain := fun t ht c hc =>
          ⟨fun heq => (htokens t ht).1 (heq ▸ hc), fun heq => (htags t ht).2 (heq ▸ hc)⟩
        value_plain := fun t ht c hc heq => (htokens t ht).2 (heq ▸ hc) }

/-! ### Reading -/

theorem parse_of_tokens {text : String} {tagTokens : List (List Char)} {name : List Char}
    (h : tokens text.toList = tagTokens ++ [name]) :
    parse text = if IsName name then
        (tagTokens.mapM (readTag text)).map fun tags => ⟨tags, String.ofList name⟩
      else .error (.nameless text) := by
  rw [parse]
  simp only [h, List.getLast?_concat, List.dropLast_concat]
  rfl

/-- **What is read.**  A series is read from the texts whose tokens are its parts, if it is well
formed, and from no others. -/
theorem parse_eq_ok_iff {text : String} :
    parse text = .ok s ↔ s.WellFormed ∧ tokens text.toList = s.parts := by
  cases hlast : (tokens text.toList).getLast? with
  | none =>
    have hnil := List.getLast?_eq_none_iff.mp hlast
    have herror : parse text = .error .blank := by
      rw [parse]
      simp only [hlast]
    rw [herror, hnil]
    exact iff_of_false nofun fun h =>
      List.append_ne_nil_of_right_ne_nil _ (List.cons_ne_nil _ _) h.2.symm
  | some name =>
    -- the last token is the name, and those before it are the tags
    obtain ⟨tagTokens, h⟩ := List.getLast?_eq_some_iff.mp hlast
    rw [parse_of_tokens h]
    constructor
    · intro hread
      split at hread
      · next hname =>
        obtain ⟨tags, htags, rfl⟩ := Except.map_eq_ok_iff.mp hread
        obtain ⟨hkeys, hmap⟩ := mapM_readTag_eq_ok_iff.mp htags
        have hparts : tokens text.toList = parts ⟨tags, String.ofList name⟩ := by
          rw [h, parts, hmap, String.toList_ofList]
        refine ⟨wellFormed_iff.mpr ⟨?_, hkeys, ?_⟩, hparts⟩
        · intro piece hpiece
          exact isToken_of_mem_tokens (hparts ▸ hpiece)
        · rw [String.toList_ofList]
          exact hname
      · cases hread
    · rintro ⟨hwell, hparts⟩
      obtain ⟨-, hkeys, hname⟩ := wellFormed_iff.mp hwell
      rw [h, parts] at hparts
      obtain ⟨rfl, hlast⟩ := List.append_inj' hparts rfl
      obtain rfl := List.singleton_inj.mp hlast
      rw [if_pos hname]
      refine Except.map_eq_ok_iff.mpr ⟨s.tags, mapM_readTag_eq_ok_iff.mpr ⟨hkeys, rfl⟩, ?_⟩
      rw [String.ofList_toList]

/-- The text of a well-formed series is cut where it was joined. -/
theorem WellFormed.tokens_text (h : s.WellFormed) : tokens s.text.toList = s.parts := by
  rw [toList_text]
  exact tokens_intercalate (wellFormed_iff.mp h).1

theorem WellFormed.parse_text (h : s.WellFormed) : parse s.text = .ok s :=
  parse_eq_ok_iff.mpr ⟨h, h.tokens_text⟩

theorem WellFormed.of_parse {text : String} (h : parse text = .ok s) : s.WellFormed :=
  (parse_eq_ok_iff.mp h).1

/-- Well-formed series are told apart by their texts. -/
theorem WellFormed.text_inj {r : Series} (hs : s.WellFormed) (hr : r.WellFormed)
    (h : s.text = r.text) : s = r := by
  have hread := hs.parse_text
  rw [h, hr.parse_text] at hread
  exact (Except.ok.inj hread).symm

/-- **Which series survive their text.**  However a series was built, it is read back from its own
text if and only if it is well formed.  Whatever is read from any text is well formed, so reading the
text of what was read gives the same again, and what was read is told apart by its text. -/
theorem parse_text_iff_wellFormed :
    (∀ s : Series, parse s.text = .ok s ↔ s.WellFormed) ∧
    (∀ text s, parse text = .ok s → s.WellFormed ∧ parse s.text = parse text) ∧
    ∀ text text' s r, parse text = .ok s → parse text' = .ok r → s.text = r.text → s = r := by
  refine ⟨fun s => ⟨WellFormed.of_parse, WellFormed.parse_text⟩, ?_, ?_⟩
  · intro text s h
    have hwell := WellFormed.of_parse h
    exact ⟨hwell, hwell.parse_text.trans h.symm⟩
  · intro text text' s r hs hr
    exact (WellFormed.of_parse hs).text_inj (WellFormed.of_parse hr)

/-- A name with a space and a colon in it, and nothing else. -/
def misread : Series := ofName "rack:7 load"

/-- Its text is read as that of a tag and a shorter name, so it does not come back; a text with more
spaces than needed and a colon within a value is read as a series that does. -/
theorem parse_text_iff_wellFormed_misread :
    parse misread.text = .ok ⟨[("rack", "7")], "load"⟩ ∧ ¬ misread.WellFormed ∧
      parse " at::  load" = .ok ⟨[("at", ":")], "load"⟩ ∧
      parse (text ⟨[("at", ":")], "load"⟩) = parse " at::  load" := by
  obtain ⟨hiff, hread, -⟩ := parse_text_iff_wellFormed
  have hmisread : parse misread.text = .ok ⟨[("rack", "7")], "load"⟩ := rfl
  have hspaced : parse " at::  load" = .ok ⟨[("at", ":")], "load"⟩ := rfl
  refine ⟨hmisread, ?_, hspaced, (hread _ _ hspaced).2⟩
  rw [← hiff, hmisread, Except.ok.injEq]
  decide

end MetricStore.Series

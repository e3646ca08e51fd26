import Mathlib.Logic.ExistsUnique
import MetricStore.Failure
import MetricStore.Proofs.SeriesText

/-!
The grammar of the text of a series.

`CutInto` says how a text is cut into tokens, without the function that does it: a token reaches from
one space, or an end of the text, to the next.  There is one way to cut a text (`cutInto_iff`).  The
grammar speaks of the tokens alone: the last one is a name, and each one before it is a tag
(`Grammatical`).  Main statements:

* `read_iff_grammatical`: just the grammatical texts are read, each as the series whose text is its
  tokens with single spaces between them, so spaces are all that reading evens out;
* `colon_inside_not_enough`: it does not make a token a tag that some colon stands behind its first
  character, since the first colon ends the key.
-/

namespace MetricStore.Series

variable {piece chars : List Char} {pieces : List (List Char)}

/-! ### Cutting a text -/

/-- A text is cut into its tokens.  Spaces are passed over, and a token stands in front of a space or
at the end of the text. -/
inductive CutInto : List Char → List (List Char) → Prop where
  | nothing : CutInto [] []
  | space {rest : List Char} {pieces : List (List Char)} :
      CutInto rest pieces → CutInto (' ' :: rest) pieces
  | last {piece : List Char} : IsToken piece → CutInto piece [piece]
  | token {piece rest : List Char} {pieces : List (List Char)} :
      IsToken piece → CutInto rest pieces → CutInto (piece ++ ' ' :: rest) (piece :: pieces)

theorem tokens_cons_space (rest : List Char) : tokens (' ' :: rest) = tokens rest :=
  tokens_append_space [] rest

theorem CutInto.tokens_eq (h : CutInto chars pieces) : tokens chars = pieces := by
  induction h with
  | nothing => rfl
  | space _ ih => rw [tokens_cons_space, ih]
  | last htoken => exact tokens_of_isToken htoken
  | token htoken _ ih =>
    rw [tokens_append_space, tokens_of_isToken htoken, ih, List.singleton_append]

/-- Every text can be cut: up to its first space, and then what stands behind. -/
theorem cutInto_tokens (chars : List Char) : CutInto chars (tokens chars) := by
  induction hn : chars.length using Nat.strongRecOn generalizing chars with
  | ind n ih =>
    by_cases hspace : ' ' ∈ chars
    · obtain ⟨piece, rest, rfl, hpiece⟩ := List.eq_append_cons_of_mem hspace
      have hlt : rest.length < n := by
        rw [← hn, List.length_append, List.length_cons]
        omega
      have hrest := ih rest.length hlt rest rfl
      by_cases hne : piece = []
      · subst hne
        rw [List.nil_append, tokens_cons_space]
        exact hrest.space
      · have htoken : IsToken piece := ⟨hne, hpiece⟩
        rw [tokens_append_space, tokens_of_isToken htoken, List.singleton_append]
        exact hrest.token htoken
    · by_cases hne : chars = []
      · subst hne
        exact .nothing
      · rw [tokens_of_isToken ⟨hne, hspace⟩]
        exact .last ⟨hne, hspace⟩

/-- There is one way to cut a text. -/
theorem cutInto_iff : CutInto chars pieces ↔ tokens chars = pieces := by
  constructor
  · exact CutInto.tokens_eq
  · rintro rfl
    exact cutInto_tokens chars

/-! ### The grammar -/

/-- The tokens of a series: the last one is a name, and each one before it is a tag. -/
def Grammatical (pieces : List (List Char)) : Prop :=
  ∃ tags name, pieces = tags ++ [name] ∧ (∀ tag ∈ tags, IsTag tag) ∧ IsName name

theorem grammatical_concat_iff {tags : List (List Char)} {name : List Char} :
    Grammatical (tags ++ [name]) ↔ (∀ tag ∈ tags, IsTag tag) ∧ IsName name := by
  constructor
  · rintro ⟨tags', name', heq, h⟩
    obtain ⟨rfl, hname⟩ := List.append_inj' heq rfl
    obtain rfl := List.singleton_inj.mp hname
    exact h
  · intro h
    exact ⟨tags, name, rfl, h⟩

variable {s r : Series} {text : String}

theorem WellFormed.grammatical (h : s.WellFormed) : Grammatical s.parts := by
  obtain ⟨-, hkeys, hname⟩ := wellFormed_iff.mp h
  refine ⟨_, _, rfl, ?_, hname⟩
  intro tag htag
  obtain ⟨t, ht, rfl⟩ := List.mem_map.mp htag
  exact (isTag_tagToken_iff (hkeys t ht).2).mpr (hkeys t ht).1

/-- A tag is the token of what it is cut into. -/
theorem plainKey_cutTag {token : List Char} (h : IsTag token) :
    HasPlainKey (cutTag token) ∧ tagToken (cutTag token) = token := by
  have hread : readTag "" token = .ok (cutTag token) := if_pos h
  exact readTag_eq_ok_iff.mp hread

/-- Tokens that the grammar allows are the parts of a well-formed series. -/
theorem Grammatical.exists_parts (h : Grammatical pieces)
    (htokens : ∀ piece ∈ pieces, IsToken piece) : ∃ s : Series, s.WellFormed ∧ s.parts = pieces := by
  obtain ⟨tags, name, rfl, htags, hname⟩ := h
  have hback : (tags.map cutTag).map tagToken = tags := by
    rw [List.map_map]
    exact (List.map_congr_left fun tag htag => (plainKey_cutTag (htags tag htag)).2).trans
      (List.map_id' tags)
  have hparts : parts ⟨tags.map cutTag, String.ofList name⟩ = tags ++ [name] := by
    rw [parts, hback, String.toList_ofList]
  refine ⟨⟨tags.map cutTag, String.ofList name⟩, wellFormed_iff.mpr ⟨?_, ?_, ?_⟩, hparts⟩
  · rw [hparts]
    exact htokens
  · intro t ht
    obtain ⟨tag, htag, rfl⟩ := List.mem_map.mp ht
    exact (plainKey_cutTag (htags tag htag)).1
  · rw [String.toList_ofList]
    exact hname

theorem exists_parse_iff : (∃ s, parse text = .ok s) ↔ Grammatical (tokens text.toList) := by
  constructor
  · rintro ⟨s, hs⟩
    obtain ⟨hwell, htokens⟩ := parse_eq_ok_iff.mp hs
    rw [htokens]
    exact hwell.grammatical
  · intro h
    obtain ⟨s, hwell, hparts⟩ := h.exists_parts fun piece => isToken_of_mem_tokens
    exact ⟨s, parse_eq_ok_iff.mpr ⟨hwell, hparts.symm⟩⟩

/-- A well-formed series is told by its parts. -/
theorem WellFormed.parts_inj (hs : s.WellFormed) (hr : r.WellFormed) (h : s.parts = r.parts) :
    s = r := by
  refine hs.text_inj hr (String.toList_inj.mp ?_)
  rw [toList_text, toList_text, h]

/-- **What is read, and as what.**  A text is cut into tokens in one way.  It is read if and only if
they are grammatical, as a series whose text is those tokens with single spaces between them; any
other text is refused as no series.  Two texts are read as one series if and only if they are cut into
the same tokens. -/
theorem read_iff_grammatical :
    (∀ chars, ∃! pieces, CutInto chars pieces) ∧
    (∀ (text : String) (pieces : List (List Char)), CutInto text.toList pieces →
      ((∃ s, parse text = .ok s) ↔ Grammatical pieces) ∧
      (∀ s, parse text = .ok s → s.text.toList = [' '].intercalate pieces) ∧
      (¬ Grammatical pieces → ∃ reason,
        (parse text).mapError ParseFault.toFailure = .error (.series reason))) ∧
    ∀ (text text' : String) (pieces pieces' : List (List Char)) (s r : Series),
      CutInto text.toList pieces → CutInto text'.toList pieces' →
      parse text = .ok s → parse text' = .ok r → (s = r ↔ pieces = pieces') := by
  refine ⟨?_, ?_, ?_⟩
  · intro chars
    exact ⟨tokens chars, cutInto_tokens chars, fun other h => h.tokens_eq.symm⟩
  · intro text pieces hcut
    obtain rfl := hcut.tokens_eq
    refine ⟨exists_parse_iff, ?_, ?_⟩
    · intro s hs
      rw [toList_text, (parse_eq_ok_iff.mp hs).2]
    · intro hnot
      rcases hread : parse text with fault | s
      · exact ⟨fault.message, rfl⟩
      · exact absurd (exists_parse_iff.mp ⟨s, hread⟩) hnot
  · intro text text' pieces pieces' s r hcut hcut' hs hr
    obtain rfl := hcut.tokens_eq
    obtain rfl := hcut'.tokens_eq
    obtain ⟨hwell, htokens⟩ := parse_eq_ok_iff.mp hs
    obtain ⟨hwell', htokens'⟩ := parse_eq_ok_iff.mp hr
    rw [htokens, htokens']
    exact ⟨congrArg parts, hwell.parts_inj hwell'⟩

/-- Two texts that differ in their spaces alone are read as one series, with two colons in a row, a tag
without a value and a tab; a name with a colon is refused. -/
theorem read_iff_grammatical_spaced :
    (CutInto "  at:: b:\t  load ".toList ["at::".toList, "b:\t".toList, "load".toList] ∧
      CutInto "at:: b:\t load".toList ["at::".toList, "b:\t".toList, "load".toList] ∧
      CutInto "at:: load:".toList ["at::".toList, "load:".toList]) ∧
      (∃ s, parse "  at:: b:\t  load " = .ok s ∧ parse "at:: b:\t load" = .ok s ∧
        s.text.toList = "at:: b:\t load".toList) ∧
      ∃ reason, (parse "at:: load:").mapError ParseFault.toFailure = .error (.series reason) := by
  obtain ⟨-, hread, hsame⟩ := read_iff_grammatical
  have hspaced := cutInto_iff.mpr
    (show tokens "  at:: b:\t  load ".toList = ["at::".toList, "b:\t".toList, "load".toList] by decide)
  have hplain := cutInto_iff.mpr
    (show tokens "at:: b:\t load".toList = ["at::".toList, "b:\t".toList, "load".toList] by decide)
  have hnameless := cutInto_iff.mpr
    (show tokens "at:: load:".toList = ["at::".toList, "load:".toList] by decide)
  have hgrammar : Grammatical ["at::".toList, "b:\t".toList, "load".toList] :=
    (@grammatical_concat_iff ["at::".toList, "b:\t".toList] _).mpr (by decide)
  obtain ⟨s, hs⟩ := (hread _ _ hspaced).1.mpr hgrammar
  obtain ⟨r, hr⟩ := (hread _ _ hplain).1.mpr hgrammar
  obtain rfl := (hsame _ _ _ _ s r hspaced hplain hs hr).mpr rfl
  refine ⟨⟨hspaced, hplain, hnameless⟩, ⟨s, hs, hr, (hread _ _ hplain).2.1 s hr⟩, ?_⟩
  refine (hread _ _ hnameless).2.2 fun h => ?_
  exact absurd ((@grammatical_concat_iff ["at::".toList] _).mp h).2 (by decide)

/-- It does not make a token a tag that a colon stands behind its first character: the first colon
ends the key, and a token that begins with one has none. -/
theorem colon_inside_not_enough :
    ¬ ∀ (text : String) (tags : List (List Char)) (name : List Char),
      CutInto text.toList (tags ++ [name]) →
        ((∃ s, parse text = .ok s) ↔ (∀ tag ∈ tags, ':' ∈ tag.drop 1) ∧ ':' ∉ name) := by
  intro h
  have hcut := cutInto_iff.mpr
    (show tokens ":a:b X".toList = [":a:b".toList] ++ ["X".toList] by decide)
  obtain ⟨s, hs⟩ := (h ":a:b X" [":a:b".toList] "X".toList hcut).mpr (by decide)
  have hrefused : parse ":a:b X" = .error (.badTag ":a:b" ":a:b X") := rfl
  exact nomatch hrefused.symm.trans hs

end MetricStore.Series

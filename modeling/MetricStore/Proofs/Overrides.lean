import MetricStore.Collector
import MetricStore.Proofs.Except
import MetricStore.Proofs.Utf8
import MetricStore.Settings.Load

/-!
Configurations from a file and an environment.

File and environment are put into one table before anything is read in it, so each field of a
configuration goes its own way: a variable settles it, whatever the file says there, and what the file
says of a field counts if no variable does.  Main statement:

* `fields_overridden_one_by_one`: with variables that hold plain numerals, loading comes to the
  values that win, is refused for a winning capacity of zero, and fails on nothing but what the file
  says of a field without a variable.
-/

theorem Char.toLower_of_isDigit {c : Char} (h : c.isDigit = true) : c.toLower = c := by
  have hnine : c.val ≤ '9'.val := of_decide_eq_true (Bool.and_eq_true_iff.mp h).2
  have hnot : ¬ (c.val ≥ 'A'.val ∧ c.val ≤ 'Z'.val) := fun hupper =>
    absurd (UInt32.le_trans hupper.1 hnine) (by decide)
  exact dif_neg hnot

theorem String.toList_toLower (s : String) : s.toLower.toList = s.toList.map Char.toLower :=
  toList_map

namespace MetricStore.Settings

/-! ### Fields -/

/-- What settings can say of a configuration. -/
inductive Field where
  | capacity
  | maxSeries
deriving DecidableEq

namespace Field

/-- The key that a field stands under. -/
def key : Field → String
  | capacity => "capacity"
  | maxSeries => "max_series"

/-- The variable that overrides a field. -/
def variableName : Field → String
  | capacity => "MCSTORE_CAPACITY"
  | maxSeries => "MCSTORE_MAX_SERIES"

theorem key_injective {field other : Field} (h : field.key = other.key) : field = other := by
  cases field <;> cases other <;> first | rfl | exact absurd h (by decide)

theorem variableKey?_variableName (field : Field) :
    variableKey? field.variableName = some field.key := by
  cases field <;> simp only [variableKey?, String.toList_toLower] <;> decide

theorem ofKey_key (field : Field) : KeyPath.ofKey field.key = ⟨field.key, []⟩ := by
  cases field <;> rfl

end Field

/-! ### Keys put over a layer -/

namespace Layer

variable {name : String}

theorem putAll_append (layer : Layer) (earlier later : List (String × Given)) :
    layer.putAll (earlier ++ later) = (layer.putAll earlier).putAll later :=
  List.foldl_append

theorem get?_putAll_of_ne {source : List (String × Given)}
    (h : ∀ entry ∈ source, (KeyPath.ofKey entry.1).name ≠ name) (layer : Layer) :
    (layer.putAll source).get? name = layer.get? name := by
  induction source generalizing layer with
  | nil => rfl
  | cons entry rest ih =>
    obtain ⟨hne, hrest⟩ := List.forall_mem_cons.mp h
    rw [putAll, List.foldl_cons, ← putAll, ih hrest]
    exact get?_set_other layer (Ne.symm hne) _

/-- A value that is set last is what a name has, whatever was there. -/
theorem get?_putAll_of_last {earlier later : List (String × Given)} {key : String}
    {value : Setting} (hkey : KeyPath.ofKey key = ⟨name, []⟩)
    (h : ∀ entry ∈ later, (KeyPath.ofKey entry.1).name ≠ name) (layer : Layer) :
    (layer.putAll (earlier ++ (key, .setting value) :: later)).get? name = some value := by
  rw [putAll_append, putAll, List.foldl_cons, ← putAll, get?_putAll_of_ne h]
  show ((layer.putAll earlier).put key (.setting value)).get? name = some value
  rw [put, hkey]
  exact get?_set_self _ name value

end Layer

/-! ### Numerals in the environment -/

/-- Decimal digits that write a number below 2⁶³. -/
structure IsNumeral (content : String) (n : Nat) : Prop where
  ne_empty : content ≠ ""
  digits : ∀ c ∈ content.toList, c.isDigit = true
  value : Text.ofDigits 10 content.toList = n
  bound : n < 0x8000000000000000

namespace IsNumeral

variable {content : String} {n : Nat}

theorem natural?_eq (h : IsNumeral content n) : Scalar.natural? content.toList = some n := by
  have hne : content.toList ≠ [] := mt String.toList_eq_nil_iff.mp h.ne_empty
  have hdigits : content.toList.all Char.isDigit = true := List.all_eq_true.mpr h.digits
  rw [Scalar.natural?, hdigits, List.isEmpty_eq_false_iff.mpr hne, h.value]
  rfl

theorem integer?_eq (h : IsNumeral content n) :
    Scalar.integer? content.toList = some (n : Int) := by
  have hfits : Text.Fits64 n := by
    have := h.bound
    unfold Text.Fits64
    omega
  have hplus : '+' ∉ content.toList := fun hmem => absurd (h.digits _ hmem) (by decide)
  have hminus : '-' ∉ content.toList := fun hmem => absurd (h.digits _ hmem) (by decide)
  unfold Scalar.integer?
  split
  · next digits heq => exact absurd (heq ▸ List.mem_cons_self) hplus
  · next digits heq => exact absurd (heq ▸ List.mem_cons_self) hminus
  · rw [h.natural?_eq]
    exact Option.filter_some_pos (decide_eq_true hfits)

/-- Digits in lower case are digits, so no letter comes of them. -/
theorem toLower_ne (h : IsNumeral content n) {word : String}
    (hword : ∃ c ∈ word.toList, c.isDigit = false) : content.toLower ≠ word := by
  rintro rfl
  obtain ⟨c, hc, hletter⟩ := hword
  rw [String.toList_toLower, List.mem_map] at hc
  obtain ⟨d, hd, rfl⟩ := hc
  rw [Char.toLower_of_isDigit (h.digits d hd), h.digits d hd] at hletter
  cases hletter

/-- A numeral is read as an integer, before any other reading is tried. -/
theorem ofVariable_eq (h : IsNumeral content n) : Scalar.ofVariable content = .integer n := by
  rw [Scalar.ofVariable, if_neg (h.toLower_ne ⟨'t', by decide, by decide⟩),
    if_neg (h.toLower_ne ⟨'f', by decide, by decide⟩), h.integer?_eq]

end IsNumeral

/-! ### Overrides -/

/-- The environment overrides some fields by numerals, and sets nothing else. -/
structure Overrides (environment : List (String × String)) (value : Field → Option Nat) : Prop where
  nodup : (environment.map Prod.fst).Nodup
  /-- The variables that count, in any case, are those of the fields. -/
  only : ∀ name ∈ environment.map Prod.fst, "mcstore_".toList <+: name.toLower.toList →
    ∃ field : Field, name = field.variableName
  given : ∀ field n, value field = some n →
    ∃ content, (field.variableName, content) ∈ environment ∧ IsNumeral content n
  absent : ∀ field, value field = none → field.variableName ∉ environment.map Prod.fst

theorem ofVariables_append (earlier later : List (String × String)) :
    ofVariables (earlier ++ later) = ofVariables earlier ++ ofVariables later :=
  List.filterMap_append

theorem ofVariables_cons_of_numeral {field : Field} {content : String} {n : Nat}
    (h : IsNumeral content n) (rest : List (String × String)) :
    ofVariables ((field.variableName, content) :: rest) =
      (field.key, .setting (.scalar (.integer n) .environment)) :: ofVariables rest := by
  refine List.filterMap_cons_some ?_
  show (if content = "" then none else _) = _
  rw [if_neg h.ne_empty, field.variableKey?_variableName, h.ofVariable_eq]
  rfl

theorem exists_of_mem_ofVariables {environment : List (String × String)}
    {entry : String × Given} (h : entry ∈ ofVariables environment) :
    ∃ name ∈ environment.map Prod.fst, variableKey? name = some entry.1 := by
  obtain ⟨⟨name, content⟩, hmem, hentry⟩ := List.mem_filterMap.mp h
  refine ⟨name, List.mem_map.mpr ⟨_, hmem, rfl⟩, ?_⟩
  dsimp only at hentry
  split at hentry
  · cases hentry
  · obtain ⟨key, hkey, rfl⟩ := Option.map_eq_some_iff.mp hentry
    exact hkey

namespace Overrides

variable {environment : List (String × String)} {value : Field → Option Nat}

/-- Variables that do not override a field leave its key alone. -/
theorem ofKey_ne (h : Overrides environment value) {part : List (String × String)}
    (hpart : part ⊆ environment) {field : Field}
    (habsent : field.variableName ∉ part.map Prod.fst) :
    ∀ entry ∈ ofVariables part, (KeyPath.ofKey entry.1).name ≠ field.key := by
  intro entry hentry heq
  obtain ⟨name, hname, hkey⟩ := exists_of_mem_ofVariables hentry
  have hcounts : "mcstore_".toList <+: name.toLower.toList := by
    rw [variableKey?] at hkey
    split at hkey
    · next hstart => exact List.isPrefixOf_iff_prefix.mp hstart
    · cases hkey
  obtain ⟨other, rfl⟩ := h.only name (List.map_subset _ hpart hname) hcounts
  rw [Field.variableKey?_variableName, Option.some.injEq] at hkey
  rw [← hkey, Field.ofKey_key] at heq
  exact habsent (Field.key_injective heq ▸ hname)

/-- In the table of file and environment, a field has the value that overrides it, or what the file
says of it. -/
theorem get?_merged (h : Overrides environment value) (said : Layer) (field : Field) :
    (said.putAll (ofVariables environment)).get? field.key =
      match value field with
      | some n => some (.scalar (.integer n) .environment)
      | none => said.get? field.key := by
  cases hvalue : value field with
  | none =>
    exact Layer.get?_putAll_of_ne (h.ofKey_ne (List.Subset.refl _) (h.absent field hvalue)) said
  | some n =>
    obtain ⟨content, hmem, hnumeral⟩ := h.given field n hvalue
    obtain ⟨before, after, rfl⟩ := List.append_of_mem hmem
    -- the variable comes once, so nothing is put over it
    have hafter : field.variableName ∉ after.map Prod.fst := by
      have hnodup := h.nodup
      rw [List.map_append, List.map_cons] at hnodup
      exact (List.nodup_cons.mp (List.nodup_append.mp hnodup).2.1).1
    rw [ofVariables_append, ofVariables_cons_of_numeral hnumeral]
    refine Layer.get?_putAll_of_last field.ofKey_key (h.ofKey_ne ?_ hafter) said
    exact fun v hv => List.mem_append_right before (List.mem_cons_of_mem _ hv)

end Overrides

/-! ### Loading -/

/-- The document at a path gives some keys; no path gives none. -/
def Gives (t : FileTree) (path : Option String) (file : List (String × Given)) : Prop :=
  match path with
  | none => file = []
  | some path => readFile t path = .ok file

/-- What a file says, with nothing over it. -/
def saidBy (file : List (String × Given)) : Layer := Layer.putAll [] file

/-- The value of a field that wins, if it has one: what overrides it, or what is said of it. -/
def winning (value : Field → Option Nat) (said : Layer) (field : Field) :
    Except Fault (Option Nat) :=
  match value field with
  | some n => .ok (some n)
  | none => said.nat? field.key

/-- What loading comes to, with some fields overridden and the others as a file says. -/
structure FieldByField (value : Field → Option Nat) (said : Layer)
    (outcome : Except Fault Config) : Prop where
  /-- A configuration has the values that win, and the default for a field without one. -/
  ok_iff : ∀ config, outcome = .ok config ↔
    ∃ capacity maxSeries, winning value said .capacity = .ok capacity ∧
      winning value said .maxSeries = .ok maxSeries ∧ capacity ≠ some 0 ∧
      config = { capacity := capacity.getD 60, maxSeries }
  /-- It is one that a collector starts with. -/
  starts : ∀ config, outcome = .ok config → ∃ c, Collector.start config = .ok c
  /-- It is refused if both values can be read and the capacity is zero. -/
  refused_iff : ∀ n, outcome.mapError Fault.toFailure = .error (.capacity n) ↔
    n = 0 ∧ winning value said .capacity = .ok (some 0) ∧
      ∃ maxSeries, winning value said .maxSeries = .ok maxSeries
  /-- Settings fail for what is said of a field that is not overridden. -/
  unfit : ∀ message, outcome.mapError Fault.toFailure = .error (.settings message) →
    ∃ field setting fault, value field = none ∧ said.get? field.key = some setting ∧
      setting.toNat field.key = .error fault ∧ fault.toFailure = .settings message
  /-- What is said of such a field does not go unnoticed. -/
  noticed : ∀ field setting fault, value field = none → said.get? field.key = some setting →
    setting.toNat field.key = .error fault →
    ∃ message, outcome.mapError Fault.toFailure = .error (.settings message)

variable {t : FileTree} {path : Option String} {file : List (String × Given)}
  {environment : List (String × String)} {value : Field → Option Nat} {said : Layer}

theorem load_of_gives (h : Gives t path file) (environment : List (String × String)) :
    load t path environment = configure file (ofVariables environment) := by
  cases path with
  | none =>
    cases h
    rfl
  | some path =>
    show (readFile t path >>= fun file => configure file (ofVariables environment)) = _
    rw [h]
    rfl

/-- A field is read off the table as the value that wins. -/
theorem nat?_merged (h : Overrides environment value) (said : Layer) (field : Field) :
    (said.putAll (ofVariables environment)).nat? field.key = winning value said field := by
  rw [Layer.nat?, h.get?_merged, winning]
  cases value field with
  | none => rfl
  | some n => rfl

/-- Loading takes the values that win, and then checks the capacity. -/
theorem load_eq (h : Overrides environment value) (hfile : Gives t path file) :
    load t path environment = (do
      let capacity ← winning value (saidBy file) .capacity
      let maxSeries ← winning value (saidBy file) .maxSeries
      if capacity = some 0 then .error (.refused (.capacity 0))
      else .ok { capacity := capacity.getD 60, maxSeries }) := by
  have hcapacity : Layer.nat? _ "capacity" = _ := nat?_merged h (saidBy file) .capacity
  have hmaxSeries : Layer.nat? _ "max_series" = _ := nat?_merged h (saidBy file) .maxSeries
  rw [load_of_gives hfile, configure, ← saidBy, Layer.toPartial, hcapacity, hmaxSeries]
  cases winning value (saidBy file) .capacity with
  | error fault => rfl
  | ok capacity =>
    cases winning value (saidBy file) .maxSeries with
    | error fault => rfl
    | ok maxSeries =>
      show (Config.overlay {} ⟨capacity, maxSeries⟩).mapError Fault.refused =
        if capacity = some 0 then .error (.refused (.capacity 0)) else _
      rw [Config.overlay]
      split
      · rfl
      · cases maxSeries <;> rfl

/-- Loading fails with a field, or both fields can be read and the capacity decides. -/
theorem load_cases (h : Overrides environment value) (hfile : Gives t path file) :
    (∃ field fault, winning value (saidBy file) field = .error fault ∧
      load t path environment = .error fault) ∨
    ∃ capacity maxSeries, winning value (saidBy file) .capacity = .ok capacity ∧
      winning value (saidBy file) .maxSeries = .ok maxSeries ∧
      load t path environment =
        if capacity = some 0 then .error (.refused (.capacity 0))
        else .ok { capacity := capacity.getD 60, maxSeries } := by
  rw [load_eq h hfile]
  cases hcapacity : winning value (saidBy file) .capacity with
  | error fault => exact .inl ⟨_, fault, hcapacity, rfl⟩
  | ok capacity =>
    cases hmaxSeries : winning value (saidBy file) .maxSeries with
    | error fault => exact .inl ⟨_, fault, hmaxSeries, rfl⟩
    | ok maxSeries => exact .inr ⟨capacity, maxSeries, rfl, rfl, rfl⟩

/-! ### Failures -/

/-- A setting that is no natural number fails as one. -/
theorem toFailure_of_toNat {setting : Setting} {key : String} {fault : Fault}
    (h : setting.toNat key = .error fault) : ∃ message, fault.toFailure = .settings message := by
  cases setting with
  | scalar scalar origin =>
    rw [Setting.toNat, Except.mapError_eq_error_iff] at h
    obtain ⟨u, -, rfl⟩ := h
    exact ⟨_, rfl⟩
  | list origin =>
    cases h
    exact ⟨_, rfl⟩
  | table =>
    cases h
    exact ⟨_, rfl⟩

/-- A value cannot be read if it is the file's and no natural number. -/
theorem winning_eq_error_iff {field : Field} {fault : Fault} :
    winning value said field = .error fault ↔
      ∃ setting, value field = none ∧ said.get? field.key = some setting ∧
        setting.toNat field.key = .error fault := by
  rw [winning]
  cases value field with
  | some n => exact iff_of_false nofun fun ⟨_, h, _⟩ => nomatch h
  | none =>
    dsimp only [Layer.nat?]
    cases said.get? field.key with
    | none => exact iff_of_false nofun fun ⟨_, _, h, _⟩ => nomatch h
    | some setting =>
      simp only [true_and, Option.some.injEq, exists_eq_left']
      cases setting.toNat field.key with
      | ok n => exact iff_of_false nofun nofun
      | error fault' =>
        show Except.error fault' = .error fault ↔ _
        rw [Except.error.injEq, Except.error.injEq]

theorem fieldByField_error {field : Field} {fault : Fault}
    (h : winning value said field = .error fault) : FieldByField value said (.error fault) := by
  obtain ⟨setting, hnone, hsaid, hbad⟩ := winning_eq_error_iff.mp h
  obtain ⟨message, hmessage⟩ := toFailure_of_toNat hbad
  have hunread : ∀ {capacity maxSeries}, winning value said .capacity = .ok capacity →
      ¬ winning value said .maxSeries = .ok maxSeries := by
    intro capacity maxSeries hcapacity hmaxSeries
    cases field with
    | capacity => exact nomatch h.symm.trans hcapacity
    | maxSeries => exact nomatch h.symm.trans hmaxSeries
  have hfailure : (Except.error fault : Except Fault Config).mapError Fault.toFailure =
      .error (.settings message) := congrArg _ hmessage
  refine ⟨?_, nofun, ?_, ?_, fun _ _ _ _ _ _ => ⟨message, hfailure⟩⟩
  · intro config
    refine iff_of_false nofun ?_
    rintro ⟨capacity, maxSeries, hcapacity, hmaxSeries, -⟩
    exact hunread hcapacity hmaxSeries
  · intro n
    rw [hfailure]
    refine iff_of_false nofun ?_
    rintro ⟨-, hcapacity, maxSeries, hmaxSeries⟩
    exact hunread hcapacity hmaxSeries
  · intro message' hmessage'
    exact ⟨field, setting, fault, hnone, hsaid, hbad, Except.error.inj hmessage'⟩

theorem fieldByField_ok {capacity maxSeries : Option Nat}
    (hcapacity : winning value said .capacity = .ok capacity)
    (hmaxSeries : winning value said .maxSeries = .ok maxSeries) :
    FieldByField value said
      (if capacity = some 0 then .error (.refused (.capacity 0))
        else .ok { capacity := capacity.getD 60, maxSeries }) := by
  have hread : ∀ field fault, winning value said field ≠ .error fault := by
    intro field fault h
    cases field with
    | capacity => exact nomatch hcapacity.symm.trans h
    | maxSeries => exact nomatch hmaxSeries.symm.trans h
  have hnoticed : ∀ field setting fault, value field = none → said.get? field.key = some setting →
      ¬ setting.toNat field.key = .error fault := by
    intro field setting fault hnone hsaid hbad
    exact hread field fault (winning_eq_error_iff.mpr ⟨setting, hnone, hsaid, hbad⟩)
  by_cases hzero : capacity = some 0
  · subst hzero
    rw [if_pos rfl]
    refine ⟨?_, nofun, ?_, nofun, ?_⟩
    · intro config
      refine iff_of_false nofun ?_
      rintro ⟨capacity, -, hcapacity', -, hne, -⟩
      exact hne (Except.ok.inj (hcapacity'.symm.trans hcapacity))
    · intro n
      refine ⟨fun h => ?_, fun h => h.1 ▸ rfl⟩
      cases h
      exact ⟨rfl, hcapacity, maxSeries, hmaxSeries⟩
    · intro field setting fault hnone hsaid hbad
      exact absurd hbad (hnoticed field setting fault hnone hsaid)
  · rw [if_neg hzero]
    refine ⟨?_, ?_, ?_, nofun, ?_⟩
    · intro config
      constructor
      · rintro ⟨⟩
        exact ⟨capacity, maxSeries, hcapacity, hmaxSeries, hzero, rfl⟩
      · rintro ⟨capacity', maxSeries', hcapacity', hmaxSeries', -, rfl⟩
        obtain rfl := Except.ok.inj (hcapacity'.symm.trans hcapacity)
        obtain rfl := Except.ok.inj (hmaxSeries'.symm.trans hmaxSeries)
        rfl
    · rintro config ⟨⟩
      refine ⟨_, if_neg ?_⟩
      cases capacity with
      | none => exact nofun
      | some n => exact fun h => hzero (congrArg some h)
    · intro n
      refine iff_of_false nofun ?_
      rintro ⟨-, hcapacity', -⟩
      exact hzero (Except.ok.inj (hcapacity.symm.trans hcapacity'))
    · intro field setting fault hnone hsaid hbad
      exact absurd hbad (hnoticed field setting fault hnone hsaid)

theorem fieldByField_load (h : Overrides environment value) (hfile : Gives t path file) :
    FieldByField value (saidBy file) (load t path environment) := by
  obtain ⟨field, fault, hbad, hload⟩ | ⟨capacity, maxSeries, hcapacity, hmaxSeries, hload⟩ :=
    load_cases h hfile
  · rw [hload]
    exact fieldByField_error hbad
  · rw [hload]
    exact fieldByField_ok hcapacity hmaxSeries

/-- **Fields are overridden one by one.**  Whatever file is read or none, with variables that hold
plain numerals, loading comes to the values that win, field by field; and two files that say the same
of the fields without a variable are as good as each other, whatever else they say. -/
theorem fields_overridden_one_by_one (h : Overrides environment value) :
    (∀ t path file, Gives t path file →
      FieldByField value (saidBy file) (load t path environment)) ∧
    ∀ t path file t' path' file', Gives t path file → Gives t' path' file' →
      (∀ field, value field = none →
        (saidBy file).get? field.key = (saidBy file').get? field.key) →
      load t path environment = load t' path' environment := by
  refine ⟨fun t path file hfile => fieldByField_load h hfile, ?_⟩
  intro t path file t' path' file' hfile hfile' hsaid
  have hwinning : winning value (saidBy file) = winning value (saidBy file') := by
    funext field
    rw [winning, winning]
    cases hvalue : value field with
    | some n => rfl
    | none => simp only [Layer.nat?, hsaid field hvalue]
  rw [load_eq h hfile, load_eq h hfile', hwinning]

/-- A file whose text is a document gives what the document sets. -/
theorem gives_of_text {text place path : String} {entries : Toml.Table}
    (hread : Toml.read text = some (.table entries)) (hthere : (t.resolve path).isNone = false)
    (hlocate : t.locate path = some ⟨place, Text.Utf8.encode text.toList⟩) :
    Gives t (some path) (ofTable (.file place) entries) := by
  have hdecode : Text.Utf8.decode (Text.Utf8.encode text.toList) = .ok text.toList :=
    Text.Utf8.decode_eq_ok_iff.mpr rfl
  show readFile t path = _
  rw [readFile, hthere, hlocate]
  simp only [Option.bind_eq_bind, Option.bind_some, hdecode, Except.toOption, String.ofList_toList,
    hread, Bool.false_eq_true, if_false]
  rfl

/-- The entries of a table that holds integers and nothing else. -/
def integers? : Toml.Table → Option (List (String × Int))
  | [] => some []
  | (key, .integer n) :: rest => (integers? rest).map ((key, n) :: ·)
  | _ :: _ => none

/-- The entries of a document of this kind. -/
def settings? (text : String) : Option (List (String × Int)) :=
  match Toml.read text with
  | some (.table entries) => integers? entries
  | _ => none

theorem eq_of_integers? {entries : Toml.Table} {integers : List (String × Int)}
    (h : integers? entries = some integers) :
    entries = integers.map fun (key, n) => (key, .integer n) := by
  fun_induction integers? entries generalizing integers with
  | case1 =>
    cases h
    rfl
  | case2 key n rest ih =>
    obtain ⟨integers, hrest, rfl⟩ := Option.map_eq_some_iff.mp h
    rw [ih hrest, List.map_cons]
  | case3 => cases h

theorem read_of_settings? {text : String} {integers : List (String × Int)}
    (h : settings? text = some integers) :
    Toml.read text = some (.table (integers.map fun (key, n) => (key, .integer n))) := by
  rw [settings?] at h
  split at h
  · next entries hread => rw [hread, eq_of_integers? h]
  · cases h

/-- A file of settings with some text, and nothing else. -/
def written (text : String) : FileTree :=
  .ofPaths [] [] [("/etc/store.toml", Text.Utf8.encode text.toList)]

/-- The capacity is overridden. -/
def roomy : Field → Option Nat
  | .capacity => some 120
  | .maxSeries => none

/-- A capacity that does not count is overridden, and the limit is that of the file; nothing else
comes of a file without a capacity. -/
theorem fields_overridden_one_by_one_roomy :
    Overrides [("PATH", "/bin"), ("MCSTORE_CAPACITY", "0120")] roomy ∧
      load (written "capacity = -3\nmax_series = 500\n") (some "/etc/store.toml")
          [("PATH", "/bin"), ("MCSTORE_CAPACITY", "0120")] =
        .ok { capacity := 120, maxSeries := some 500 } ∧
      load (written "max_series = 500\n") (some "/etc/store.toml")
          [("PATH", "/bin"), ("MCSTORE_CAPACITY", "0120")] =
        .ok { capacity := 120, maxSeries := some 500 } := by
  have hnumeral : IsNumeral "0120" 120 :=
    ⟨by decide, List.all_eq_true.mp rfl, by decide, by omega⟩
  have henvironment : Overrides [("PATH", "/bin"), ("MCSTORE_CAPACITY", "0120")] roomy := by
    refine ⟨by decide, ?_, ?_, ?_⟩
    · intro name hname hstart
      obtain rfl | hname := List.mem_cons.mp hname
      · rw [String.toList_toLower] at hstart
        exact absurd hstart (by decide)
      · exact ⟨.capacity, List.mem_singleton.mp hname⟩
    · intro field n hn
      cases field with
      | capacity =>
        cases hn
        exact ⟨"0120", by decide, hnumeral⟩
      | maxSeries => cases hn
    · intro field hnone
      cases field with
      | capacity => cases hnone
      | maxSeries => decide
  have hread : Toml.read "capacity = -3\nmax_series = 500\n" =
      some (.table [("capacity", .integer (-3)), ("max_series", .integer 500)]) :=
    @read_of_settings? _ [("capacity", -3), ("max_series", 500)] (by decide +kernel)
  have hread' : Toml.read "max_series = 500\n" = some (.table [("max_series", .integer 500)]) :=
    @read_of_settings? _ [("max_series", 500)] (by decide +kernel)
  obtain ⟨hfields, hsame⟩ := fields_overridden_one_by_one henvironment
  have hfile : Gives (written "capacity = -3\nmax_series = 500\n") (some "/etc/store.toml") _ :=
    gives_of_text hread rfl rfl
  have hfile' : Gives (written "max_series = 500\n") (some "/etc/store.toml") _ :=
    gives_of_text hread' rfl rfl
  have hload := ((hfields _ _ _ hfile).ok_iff _).mpr ⟨some 120, some 500, rfl, rfl, by decide, rfl⟩
  refine ⟨henvironment, hload, (hsame _ _ _ _ _ _ hfile' hfile ?_).trans hload⟩
  intro field hnone
  cases field with
  | capacity => cases hnone
  | maxSeries => rfl

end MetricStore.Settings

import ColumnQuery.CommandLine.Options
import ColumnQuery.Proofs.Traversal
import Mathlib.Data.List.Induction
import Mathlib.Data.List.TakeDrop
import Mathlib.Data.List.TakeWhile

/-! # Reading options inverts writing them

The words of a command line are those of some settings, one after the other, and reading the words
applies the settings in this order. A setting of a flag counts if it is the last one of the flag,
and an empty path counts as none. So the words that give some options are the words of the settings
of these options, in any order, and with earlier settings of the same flags and empty paths between
them.
-/

namespace ColumnQuery.CommandLine

private theorem ofWord?_word (flag : ValueFlag) : ValueFlag.ofWord? flag.word = some flag := by
  cases flag <;> decide

private theorem word_of_ofWord? {word : String} {flag : ValueFlag}
    (found : ValueFlag.ofWord? word = some flag) : flag.word = word := by
  simpa only [beq_iff_eq] using List.find?_some found

private theorem isFlag_iff {word : String} : isFlag word = true ↔ ['-', '-'] <+: word.toList :=
  List.isPrefixOf_iff_prefix

private theorem isFlag_word (flag : ValueFlag) : isFlag flag.word = true := by
  cases flag <;> decide

private theorem span_eq_cons_iff {chars before after : List Char} {char : Char} :
    chars.span (· ≠ '=') = (before, char :: after) ↔
      chars = before ++ '=' :: after ∧ char = '=' ∧ '=' ∉ before := by
  rw [List.span_eq_takeWhile_dropWhile, Prod.mk.injEq]
  constructor
  · rintro ⟨rfl, rest⟩
    have first : char = '=' := by
      have stops := List.head?_dropWhile_not (fun other => decide (other ≠ '=')) chars
      rw [rest] at stops
      simpa using stops
    refine ⟨?_, first, fun isEquals => ?_⟩
    · have whole := List.takeWhile_append_dropWhile (p := fun other => decide (other ≠ '='))
        (l := chars)
      rw [rest, first] at whole
      exact whole.symm
    · simpa using List.mem_takeWhile_imp isEquals
  · rintro ⟨rfl, rfl, free⟩
    have passes (other : Char) (isBefore : other ∈ before) : decide (other ≠ '=') = true := by
      rw [decide_eq_true_eq]
      rintro rfl
      exact free isBefore
    rw [List.takeWhile_append_of_pos passes, List.dropWhile_append_of_pos passes]
    simp

/-- A text is cut at its first `=`. -/
theorem cutAtEquals_eq_some_iff {text column value : String} :
    cutAtEquals text = some (column, value) ↔
      text = column ++ "=" ++ value ∧ '=' ∉ column.toList := by
  have spans : text = column ++ "=" ++ value ∧ '=' ∉ column.toList ↔
      text.toList.span (· ≠ '=') = (column.toList, '=' :: value.toList) := by
    rw [span_eq_cons_iff, ← String.toList_inj]
    simp
  rw [spans, cutAtEquals]
  split
  · rename_i before char after cut
    obtain ⟨-, rfl, -⟩ := span_eq_cons_iff.mp cut
    rw [cut]
    simp [← String.toList_inj]
  · rename_i cut
    rw [cut]
    simp

namespace Setting

/-- A setting that is read as it is written: a path that does not look like a flag, or a filter
whose column has no `=` in its name. -/
def IsReadable : Setting → Prop
  | path file => ¬['-', '-'] <+: file.toList
  | filter column _ => '=' ∉ column.toList
  | groupBy _ | sum _ | config _ | explain => True

def path? : Setting → Option String
  | path file => some file
  | _ => none

def filter? : Setting → Option (String × String)
  | filter column value => some (column, value)
  | _ => none

def groupBy? : Setting → Option String
  | groupBy column => some column
  | _ => none

def sum? : Setting → Option String
  | sum column => some column
  | _ => none

def config? : Setting → Option String
  | config file => some file
  | _ => none

/-- A setting of a flag that takes a value is written as the word of the flag and the value. -/
theorem isReadable_of_setting {flag : ValueFlag} {value : String} {setting : Setting}
    (set : flag.setting value = .ok setting) :
    setting.words = [flag.word, value] ∧ setting.IsReadable := by
  cases flag with
  | filter =>
    rw [ValueFlag.setting] at set
    split at set
    · rename_i column text cut
      obtain ⟨written, free⟩ := cutAtEquals_eq_some_iff.mp cut
      cases set
      exact ⟨written ▸ rfl, free⟩
    · cases set
  | groupBy | sum | config =>
    cases set
    exact ⟨rfl, trivial⟩

end Setting

namespace QueryOptions

variable {options result : QueryOptions} {words rest : List String}

private theorem readFrom_setting {flag : ValueFlag} {value : String} {setting : Setting}
    (set : flag.setting value = .ok setting) :
    options.readFrom (flag.word :: value :: rest) =
      options.apply setting >>= fun changed => changed.readFrom rest := by
  rw [readFrom, ofWord?_word]
  simp only [set]
  rfl

private theorem readFrom_path {file : String} (plain : ¬['-', '-'] <+: file.toList) :
    options.readFrom (file :: rest) =
      options.apply (.path file) >>= fun changed => changed.readFrom rest := by
  have notFlag : ¬isFlag file = true := fun looks => plain (isFlag_iff.mp looks)
  have noValue : ValueFlag.ofWord? file = Option.none := by
    cases found : ValueFlag.ofWord? file with
    | none => rfl
    | some flag => exact absurd (word_of_ofWord? found ▸ isFlag_word flag) notFlag
  have notExplain : file ≠ explainWord := by
    rintro rfl
    exact notFlag (by decide)
  rw [readFrom, noValue]
  simp only [if_neg notExplain, if_neg notFlag]

private theorem readFrom_explain :
    options.readFrom (explainWord :: rest) =
      options.apply .explain >>= fun changed => changed.readFrom rest := by
  have noValue : ValueFlag.ofWord? explainWord = Option.none := by decide
  rw [readFrom, noValue]
  rfl

/-- The words of a setting are read as this setting, whatever follows them. -/
theorem readFrom_words {setting : Setting} (readable : setting.IsReadable) (options : QueryOptions)
    (rest : List String) :
    options.readFrom (setting.words ++ rest) =
      options.apply setting >>= fun changed => changed.readFrom rest := by
  cases setting with
  | path file => exact readFrom_path readable
  | filter column value =>
    have cut : cutAtEquals (column ++ "=" ++ value) = some (column, value) :=
      cutAtEquals_eq_some_iff.mpr ⟨rfl, readable⟩
    have set : ValueFlag.setting .filter (column ++ "=" ++ value) = .ok (.filter column value) := by
      rw [ValueFlag.setting, cut]
    exact readFrom_setting set
  | groupBy column => exact readFrom_setting (show ValueFlag.groupBy.setting column = _ from rfl)
  | sum column => exact readFrom_setting (show ValueFlag.sum.setting column = _ from rfl)
  | config file => exact readFrom_setting (show ValueFlag.config.setting file = _ from rfl)
  | explain => exact readFrom_explain

/-- Readable settings are applied in the order of their words. -/
theorem readFrom_flatMap {settings : List Setting}
    (readable : ∀ setting ∈ settings, setting.IsReadable) (options : QueryOptions) :
    options.readFrom (settings.flatMap Setting.words) = settings.foldlM apply options := by
  induction settings generalizing options with
  | nil => rfl
  | cons setting settings ih =>
    rw [List.flatMap_cons, readFrom_words (readable setting List.mem_cons_self), List.foldlM_cons]
    refine congrArg _ (funext fun changed => ?_)
    exact ih (fun other isOther => readable other (List.mem_cons_of_mem _ isOther)) changed

/-- Words that are read without an error are those of readable settings. -/
theorem exists_settings_of_readFrom (read : options.readFrom words = .ok result) :
    ∃ settings : List Setting, words = settings.flatMap Setting.words ∧
      ∀ setting ∈ settings, setting.IsReadable := by
  fun_induction QueryOptions.readFrom options words with
  | case1 => exact ⟨[], rfl, nofun⟩
  | case2 | case5 => cases read
  | case3 options word flag found value rest ih =>
    obtain ⟨setting, set, applied⟩ := bind_eq_ok_iff.mp read
    obtain ⟨changed, -, read⟩ := bind_eq_ok_iff.mp applied
    obtain ⟨settings, rfl, readable⟩ := ih changed read
    obtain ⟨written, first⟩ := Setting.isReadable_of_setting set
    refine ⟨setting :: settings, ?_, List.forall_mem_cons.mpr ⟨first, readable⟩⟩
    rw [List.flatMap_cons, written, word_of_ofWord? found]
    rfl
  | case4 options rest _ ih =>
    obtain ⟨changed, -, read⟩ := bind_eq_ok_iff.mp read
    obtain ⟨settings, rfl, readable⟩ := ih changed read
    exact ⟨.explain :: settings, rfl, List.forall_mem_cons.mpr ⟨trivial, readable⟩⟩
  | case6 options word rest _ _ notFlag ih =>
    obtain ⟨changed, -, read⟩ := bind_eq_ok_iff.mp read
    obtain ⟨settings, rfl, readable⟩ := ih changed read
    have plain : Setting.IsReadable (.path word) := fun looks => notFlag (isFlag_iff.mpr looks)
    exact ⟨.path word :: settings, rfl, List.forall_mem_cons.mpr ⟨plain, readable⟩⟩

/-- The options that some settings make, of which the last of each kind counts. -/
def ofSettings (settings : List Setting) : QueryOptions where
  path := (settings.filterMap Setting.path?).getLast?.getD ""
  filter := (settings.filterMap Setting.filter?).getLast?
  groupBy := (settings.filterMap Setting.groupBy?).getLast?
  sum := (settings.filterMap Setting.sum?).getLast?
  explain := decide (.explain ∈ settings)
  config := (settings.filterMap Setting.config?).getLast?

/-- What a setting says takes the place of what was said before. -/
def updated (options : QueryOptions) (setting : Setting) : QueryOptions where
  path := setting.path?.getD options.path
  filter := setting.filter?.or options.filter
  groupBy := setting.groupBy?.or options.groupBy
  sum := setting.sum?.or options.sum
  explain := options.explain || decide (.explain = setting)
  config := setting.config?.or options.config

/-- No path but the last of some settings says anything. -/
def HasOnePath (settings : List Setting) : Prop :=
  ∀ file ∈ (settings.filterMap Setting.path?).dropLast, file = ""

section Snoc

variable {settings : List Setting}

private theorem filterMap_snoc {α : Type} (pick : Setting → Option α) (settings : List Setting)
    (setting : Setting) :
    (settings ++ [setting]).filterMap pick = settings.filterMap pick ++ (pick setting).toList := by
  rw [List.filterMap_append]
  cases picked : pick setting <;> simp [picked]

private theorem getLast?_filterMap_snoc {α : Type} (pick : Setting → Option α)
    (settings : List Setting) (setting : Setting) :
    ((settings ++ [setting]).filterMap pick).getLast? =
      (pick setting).or (settings.filterMap pick).getLast? := by
  rw [filterMap_snoc, List.getLast?_append]
  cases pick setting <;> rfl

private theorem ofSettings_snoc (settings : List Setting) (setting : Setting) :
    ofSettings (settings ++ [setting]) = (ofSettings settings).updated setting := by
  simp only [ofSettings, updated, getLast?_filterMap_snoc, mk.injEq, and_true, true_and]
  constructor
  · cases setting.path? <;> rfl
  · simp only [List.mem_append, List.mem_singleton, Bool.decide_or]

private theorem forall_empty_iff {files : List String} :
    (∀ file ∈ files, file = "") ↔
      (∀ file ∈ files.dropLast, file = "") ∧ files.getLast?.getD "" = "" := by
  rcases List.eq_nil_or_concat files with rfl | ⟨others, last, rfl⟩
  · simp
  · simp [or_imp, forall_and]

private theorem hasOnePath_snoc {setting : Setting} :
    HasOnePath (settings ++ [setting]) ↔
      HasOnePath settings ∧ (setting.path?.isSome → (ofSettings settings).path = "") := by
  rw [HasOnePath, filterMap_snoc]
  cases setting.path? with
  | none => simp [HasOnePath]
  | some file =>
    rw [Option.toList_some, List.dropLast_concat, forall_empty_iff]
    simp [HasOnePath, ofSettings]

/-- A second path is refused, and every other setting is taken. -/
theorem apply_eq_ok_iff {setting : Setting} {changed : QueryOptions} :
    options.apply setting = .ok changed ↔
      (setting.path?.isSome → options.path = "") ∧ options.updated setting = changed := by
  cases setting with
  | path file =>
    have updates : options.updated (.path file) = { options with path := file } := by
      simp [updated, Setting.path?, Setting.filter?, Setting.groupBy?, Setting.sum?,
        Setting.config?]
    rw [apply, updates]
    split
    · rename_i unnamed
      simp [unnamed]
    · rename_i named
      simp [Setting.path?, named]
  | filter | groupBy | sum | config | explain =>
    simp [apply, updated, Setting.path?, Setting.filter?, Setting.groupBy?, Setting.sum?,
      Setting.config?]

private theorem foldlM_apply_eq_ok_iff :
    settings.foldlM apply none = .ok options ↔
      HasOnePath settings ∧ ofSettings settings = options := by
  induction settings using List.reverseRecOn generalizing options with
  | nil =>
    have start : ofSettings [] = none := rfl
    simp [start, HasOnePath, pure_eq_ok]
  | append_singleton settings setting ih =>
    rw [List.foldlM_append, bind_eq_ok_iff, hasOnePath_snoc, ofSettings_snoc]
    simp only [ih, List.foldlM_cons, List.foldlM_nil, bind_pure, apply_eq_ok_iff]
    constructor
    · rintro ⟨_, ⟨onePath, rfl⟩, unnamed, made⟩
      exact ⟨⟨onePath, unnamed⟩, made⟩
    · rintro ⟨⟨onePath, unnamed⟩, made⟩
      exact ⟨_, ⟨onePath, rfl⟩, unnamed, made⟩

end Snoc

/-- Options that can be written: with a path that is none of a flag, a column to filter by without a
`=` in its name, and groups only of a sum. -/
structure IsExpressible (options : QueryOptions) : Prop where
  named : options.path ≠ ""
  plain : ¬['-', '-'] <+: options.path.toList
  column : ∀ column value, options.filter = some (column, value) → '=' ∉ column.toList
  grouped : options.groupBy.isSome → options.sum.isSome

/-- The settings of options, each kind once. -/
def settings (options : QueryOptions) : List Setting :=
  .path options.path :: (options.filter.toList.map fun (column, value) => .filter column value) ++
    options.groupBy.toList.map .groupBy ++ options.sum.toList.map .sum ++
    options.config.toList.map .config ++ if options.explain then [.explain] else []

/-- Some settings say what options say: the last of each kind counts, and there is one path, which
empty ones may precede. -/
structure MadeBy (options : QueryOptions) (settings : List Setting) : Prop where
  path : ∃ count, settings.filterMap Setting.path? = List.replicate count "" ++ [options.path]
  filter : (settings.filterMap Setting.filter?).getLast? = options.filter
  groupBy : (settings.filterMap Setting.groupBy?).getLast? = options.groupBy
  sum : (settings.filterMap Setting.sum?).getLast? = options.sum
  config : (settings.filterMap Setting.config?).getLast? = options.config
  explain : .explain ∈ settings ↔ options.explain = true

section Made

variable {settings : List Setting}

/-- Paths of which only the last says anything. -/
theorem exists_replicate_iff {files : List String} {file : String} :
    (∃ count, files = List.replicate count "" ++ [file]) ↔
      (∀ other ∈ files.dropLast, other = "") ∧ files.getLast? = some file := by
  constructor
  · rintro ⟨count, rfl⟩
    rw [List.dropLast_concat, List.getLast?_concat]
    exact ⟨fun other isOther => List.eq_of_mem_replicate isOther, rfl⟩
  · rintro ⟨empty, last⟩
    refine ⟨files.dropLast.length, ?_⟩
    rw [← List.eq_replicate_of_mem empty]
    exact (List.dropLast_append_getLast? file last).symm

private theorem madeBy_iff (named : options.path ≠ "") :
    options.MadeBy settings ↔ HasOnePath settings ∧ ofSettings settings = options := by
  constructor
  · intro made
    obtain ⟨empty, last⟩ := exists_replicate_iff.mp made.path
    refine ⟨empty, ?_⟩
    simp [ofSettings, last, made.filter, made.groupBy, made.sum, made.config, made.explain]
  · rintro ⟨onePath, rfl⟩
    refine ⟨exists_replicate_iff.mpr ⟨onePath, ?_⟩, rfl, rfl, rfl, rfl, by simp [ofSettings]⟩
    rw [ofSettings] at named ⊢
    cases last : (settings.filterMap Setting.path?).getLast? with
    | none => simp [last] at named
    | some file => rfl

private theorem eq_toList_of_perm {α : Type} {values : List α} {value : Option α}
    (perm : values.Perm value.toList) : values = value.toList := by
  cases value with
  | none => exact perm.eq_nil
  | some value => exact List.perm_singleton.mp perm

/-- The settings of some options make these options in any order. -/
theorem madeBy_of_perm (perm : settings.Perm options.settings) : options.MadeBy settings := by
  have picked {α : Type} {pick : Setting → Option α} {value : Option α}
      (own : options.settings.filterMap pick = value.toList) :
      settings.filterMap pick = value.toList :=
    eq_toList_of_perm (own ▸ perm.filterMap pick)
  have last {α : Type} {pick : Setting → Option α} {value : Option α}
      (own : options.settings.filterMap pick = value.toList) :
      (settings.filterMap pick).getLast? = value := by
    rw [picked own]
    cases value <;> rfl
  obtain ⟨path, filter, groupBy, sum, explain, config⟩ := options
  refine ⟨⟨0, (picked ?_ : _ = (some path).toList)⟩, last ?_, last ?_, last ?_, last ?_, ?_⟩
  case refine_6 =>
    rw [perm.mem_iff]
    cases explain <;> simp [QueryOptions.settings]
  -- each kind of setting is found in its own part of the list only
  all_goals
    cases filter <;> cases groupBy <;> cases sum <;> cases config <;> cases explain <;> rfl

private theorem isReadable_of_mem_settings (expressible : options.IsExpressible) :
    ∀ setting ∈ options.settings, setting.IsReadable := by
  intro setting isSetting
  cases setting with
  | path file =>
    have same : file = options.path := by simpa [QueryOptions.settings] using isSetting
    exact same ▸ expressible.plain
  | filter column value =>
    have same : options.filter = some (column, value) := by
      simpa [QueryOptions.settings] using isSetting
    exact expressible.column column value same
  | groupBy | sum | config | explain => trivial

end Made

theorem check_eq_ok_iff {checked : QueryOptions} :
    options.check = .ok checked ↔
      options.path ≠ "" ∧ (options.groupBy.isSome → options.sum.isSome) ∧ options = checked := by
  rw [check]
  split
  · rename_i unnamed
    simp [unnamed]
  · rename_i named
    have groups : (options.groupBy.isSome && options.sum.isNone) = true ↔
        ¬(options.groupBy.isSome → options.sum.isSome) := by
      simp
    split
    · rename_i ungrouped
      simp [groups.mp ungrouped]
    · rename_i grouped
      have allowed := not_not.mp (mt groups.mpr grouped)
      exact ⟨fun same => ⟨named, allowed, Except.ok.inj same⟩, fun ⟨_, _, same⟩ => same ▸ rfl⟩

/-- Options that readable settings make can be written, if they pass the check. -/
theorem isExpressible_of_madeBy {settings : List Setting}
    (readable : ∀ setting ∈ settings, setting.IsReadable) (made : options.MadeBy settings)
    (named : options.path ≠ "") (grouped : options.groupBy.isSome → options.sum.isSome) :
    options.IsExpressible := by
  refine ⟨named, ?_, ?_, grouped⟩
  · obtain ⟨count, paths⟩ := made.path
    have isPath : options.path ∈ settings.filterMap Setting.path? := by
      rw [paths]
      exact List.mem_append_right _ List.mem_cons_self
    obtain ⟨setting, isSetting, gives⟩ := List.mem_filterMap.mp isPath
    cases setting <;> cases gives
    exact readable _ isSetting
  · intro column value filtered
    have isFilter := List.mem_of_getLast? (made.filter.trans filtered)
    obtain ⟨setting, isSetting, gives⟩ := List.mem_filterMap.mp isFilter
    cases setting <;> cases gives
    exact readable _ isSetting

/-- Words are read as options exactly when they are those of readable settings that make them. -/
theorem parse_eq_ok_iff :
    parse words = .ok options ↔
      options.IsExpressible ∧ ∃ settings : List Setting, words = settings.flatMap Setting.words ∧
        (∀ setting ∈ settings, setting.IsReadable) ∧ options.MadeBy settings := by
  rw [parse, bind_eq_ok_iff]
  constructor
  · rintro ⟨_, read, checked⟩
    obtain ⟨named, grouped, rfl⟩ := check_eq_ok_iff.mp checked
    obtain ⟨settings, rfl, readable⟩ := exists_settings_of_readFrom read
    rw [readFrom_flatMap readable, foldlM_apply_eq_ok_iff] at read
    have made := (madeBy_iff named).mpr read
    exact ⟨isExpressible_of_madeBy readable made named grouped, settings, rfl, readable, made⟩
  · rintro ⟨expressible, settings, rfl, readable, made⟩
    refine ⟨options, ?_, check_eq_ok_iff.mpr ⟨expressible.named, expressible.grouped, rfl⟩⟩
    rw [readFrom_flatMap readable, foldlM_apply_eq_ok_iff]
    exact (madeBy_iff expressible.named).mp made

/-- Reading the words of options gives these options, in whatever order their settings are written.
Words are read as options exactly when they are the words of such settings, except for earlier
settings of the same flags and for empty paths before the path. -/
theorem parse_inverts_words (options : QueryOptions) :
    (options.IsExpressible → ∀ settings : List Setting, settings.Perm options.settings →
      parse (settings.flatMap Setting.words) = .ok options) ∧
    ∀ words, parse words = .ok options ↔
      options.IsExpressible ∧ ∃ settings : List Setting, words = settings.flatMap Setting.words ∧
        (∀ setting ∈ settings, setting.IsReadable) ∧ options.MadeBy settings := by
  refine ⟨fun expressible settings perm => ?_, fun words => parse_eq_ok_iff⟩
  have readable : ∀ setting ∈ settings, setting.IsReadable := fun setting isSetting =>
    isReadable_of_mem_settings expressible setting (perm.mem_iff.mp isSetting)
  exact parse_eq_ok_iff.mpr ⟨expressible, settings, rfl, readable, madeBy_of_perm perm⟩

/-- The values of flags may be empty or look like flags, and their order is free. -/
theorem parse_inverts_words_flags :
    (⟨"t.parquet", some ("a", "b=c"), some "--sum", some "", true, .none⟩ :
      QueryOptions).IsExpressible ∧
    parse ["--sum", "", "--explain", "--group-by", "--sum", "t.parquet", "--filter-eq", "a=b=c"] =
      .ok ⟨"t.parquet", some ("a", "b=c"), some "--sum", some "", true, .none⟩ := by
  have expressible : (⟨"t.parquet", some ("a", "b=c"), some "--sum", some "", true, .none⟩ :
      QueryOptions).IsExpressible :=
    ⟨by decide, by decide, by rintro _ _ ⟨⟩; decide, fun _ => rfl⟩
  exact ⟨expressible, (parse_inverts_words _).1 expressible
    [.sum "", .explain, .groupBy "--sum", .path "t.parquet", .filter "a" "b=c"] (by decide)⟩

end QueryOptions

end ColumnQuery.CommandLine

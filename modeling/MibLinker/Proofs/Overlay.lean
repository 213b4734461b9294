import Mathlib.Data.List.DropRight
import MibLinker.Options

/-!
# Options from the environment

Each option has a variable of its own. The variable sets the option, whatever it was, or it is
absent or cannot be read, and the option stays as it was. A list of names may be written with white
space around each name and with blank entries among them. Reading gives the names back, and every
text is a way to write one list of names and no other.
-/

namespace MibLinker

namespace Text

/-! ## Trimmed texts -/

def AllBlank (text : List Char) : Prop := ∀ c ∈ text, isBlank c = true

instance (text : List Char) : Decidable (AllBlank text) :=
  List.decidableBAll (fun c => isBlank c = true) text

structure Trimmed (text : List Char) : Prop where
  head : ∀ c ∈ text.head?, isBlank c = false
  last : ∀ c ∈ text.getLast?, isBlank c = false

theorem trim_eq (text : List Char) : trim text = (text.dropWhile isBlank).rdropWhile isBlank := rfl

theorem dropWhile_append_of_allBlank {before text : List Char} (blank : AllBlank before)
    (head : ∀ c ∈ text.head?, isBlank c = false) :
    (before ++ text).dropWhile isBlank = text := by
  rw [List.dropWhile_append_of_pos blank]
  cases text with
  | nil => rfl
  | cons c rest => exact List.dropWhile_cons_of_neg (by simp [head c rfl])

theorem trim_of_allBlank {text : List Char} (blank : AllBlank text) : trim text = [] := by
  rw [trim_eq, List.dropWhile_eq_nil_iff.mpr blank, List.rdropWhile_nil]

/-- Trimming takes away just the white space that stands around a trimmed text. -/
theorem trim_around {before text after : List Char} (before_blank : AllBlank before)
    (after_blank : AllBlank after) (trimmed : Trimmed text) :
    trim (before ++ text ++ after) = text := by
  cases text with
  | nil =>
      apply trim_of_allBlank
      intro c hc
      rw [List.append_nil, List.mem_append] at hc
      exact hc.elim (before_blank c) (after_blank c)
  | cons first rest =>
      have left : (before ++ (first :: rest ++ after)).dropWhile isBlank = first :: rest ++ after :=
        dropWhile_append_of_allBlank before_blank trimmed.head
      have reversed : AllBlank after.reverse := fun c hc => after_blank c (List.mem_reverse.mp hc)
      have last : ∀ c ∈ (first :: rest).reverse.head?, isBlank c = false := by
        rw [List.head?_reverse]
        exact trimmed.last
      rw [trim, List.append_assoc, left, List.reverse_append,
        dropWhile_append_of_allBlank reversed last, List.reverse_reverse]

theorem trimmed_trim (text : List Char) : Trimmed (trim text) where
  head c hc := by
    obtain ⟨after, split⟩ : trim text <+: text.dropWhile isBlank := List.rdropWhile_prefix _ _
    have first : (text.dropWhile isBlank).head? = some c := by
      rw [← split, List.head?_append, Option.mem_def.mp hc, Option.some_or]
    have stopped := List.head?_dropWhile_not isBlank text
    rwa [first] at stopped
  last c hc := by
    obtain ⟨nonempty, rfl⟩ := List.mem_getLast?_eq_getLast hc
    exact Bool.eq_false_iff.mpr (List.rdropWhile_last_not _ _ nonempty)

/-- A text is what it is trimmed to, with white space around it. -/
theorem exists_around_trim (text : List Char) :
    ∃ before after, AllBlank before ∧ AllBlank after ∧ text = before ++ trim text ++ after := by
  refine ⟨text.takeWhile isBlank, (text.dropWhile isBlank).rtakeWhile isBlank,
    fun _ => List.mem_takeWhile_imp, fun _ => List.mem_rtakeWhile_imp, ?_⟩
  rw [trim_eq, List.append_assoc, List.rdropWhile_append_rtakeWhile,
    List.takeWhile_append_dropWhile]

/-- No part of a text that has been split holds the separator. -/
theorem not_mem_of_mem_splitOn {separator : Char} {text part : List Char}
    (h : part ∈ List.splitOn separator text) : separator ∉ part := by
  induction text generalizing part with
  | nil =>
      obtain rfl : part = [] := by simpa using h
      exact List.not_mem_nil
  | cons c rest ih =>
      rw [List.splitOn_cons_eq_if_modifyHead] at h
      split at h
      · rcases List.mem_cons.mp h with rfl | later
        · exact List.not_mem_nil
        · exact ih later
      · next other =>
          cases hs : List.splitOn separator rest with
          | nil => exact (List.splitOn_ne_nil _ _ hs).elim
          | cons first parts =>
              rw [hs, List.modifyHead_cons] at h
              rw [hs] at ih
              rcases List.mem_cons.mp h with rfl | later
              · have apart : separator ≠ c := fun same => other (by simp [same])
                exact List.not_mem_cons_of_ne_of_not_mem apart (ih (.head _))
              · exact ih (.tail _ later)

end Text

namespace Options

open MibLinker.Text

/-! ## Lists of names -/

structure IsName (name : String) : Prop where
  nonempty : name ≠ ""
  comma : ',' ∉ name.toList
  trimmed : Trimmed name.toList

/-- Whether entries spell names: each name in its turn with white space around it, and besides any
number of blank entries. -/
inductive Spells : List (List Char) → List String → Prop
  | nil : Spells [] []
  | blank {entry : List Char} {entries : List (List Char)} {names : List String}
      (blank : AllBlank entry) (rest : Spells entries names) : Spells (entry :: entries) names
  | name {before after : List Char} {name : String} {entries : List (List Char)}
      {names : List String} (before_blank : AllBlank before) (after_blank : AllBlank after)
      (rest : Spells entries names) :
      Spells ((before ++ name.toList ++ after) :: entries) (name :: names)

def Lists (raw : String) (names : List String) : Prop :=
  ∃ entries, raw.toList = List.intercalate [','] entries ∧ Spells entries names

def readEntries (entries : List (List Char)) : List String :=
  ((entries.map trim).filter (!·.isEmpty)).map String.ofList

theorem readNames_eq (raw : String) :
    readNames raw = readEntries (List.splitOn ',' raw.toList) := rfl

theorem readEntries_cons_of_blank {entry : List Char} {entries : List (List Char)}
    (blank : trim entry = []) : readEntries (entry :: entries) = readEntries entries := by
  simp [readEntries, blank]

theorem readEntries_cons {entry : List Char} {entries : List (List Char)} (h : trim entry ≠ []) :
    readEntries (entry :: entries) = String.ofList (trim entry) :: readEntries entries := by
  simp [readEntries, h]

theorem Spells.readEntries_eq {entries : List (List Char)} {names : List String}
    (h : Spells entries names) (proper : ∀ name ∈ names, IsName name) :
    readEntries entries = names := by
  induction h with
  | nil => rfl
  | blank blank _ ih => rw [readEntries_cons_of_blank (trim_of_allBlank blank), ih proper]
  | @name before after name entries names before_blank after_blank _ ih =>
      obtain ⟨first, rest⟩ := List.forall_mem_cons.mp proper
      have trimmed : trim (before ++ name.toList ++ after) = name.toList :=
        trim_around before_blank after_blank first.trimmed
      have nonempty : trim (before ++ name.toList ++ after) ≠ [] := by
        rw [trimmed]
        exact fun h => first.nonempty (String.toList_eq_nil_iff.mp h)
      rw [readEntries_cons nonempty, trimmed, String.ofList_toList, ih rest]

theorem Spells.comma_not_mem {entries : List (List Char)} {names : List String}
    (h : Spells entries names) (proper : ∀ name ∈ names, IsName name) :
    ∀ entry ∈ entries, ',' ∉ entry := by
  have solid : ∀ {text}, AllBlank text → ',' ∉ text := fun blank hc =>
    absurd (blank ',' hc) (by decide)
  induction h with
  | nil => exact List.forall_mem_nil _
  | blank blank _ ih => exact List.forall_mem_cons.mpr ⟨solid blank, ih proper⟩
  | name before_blank after_blank _ ih =>
      obtain ⟨first, rest⟩ := List.forall_mem_cons.mp proper
      refine List.forall_mem_cons.mpr ⟨?_, ih rest⟩
      simp only [List.mem_append, not_or]
      exact ⟨⟨solid before_blank, first.comma⟩, solid after_blank⟩

theorem spells_readEntries (entries : List (List Char)) : Spells entries (readEntries entries) := by
  induction entries with
  | nil => exact .nil
  | cons entry entries ih =>
      obtain ⟨before, after, before_blank, after_blank, around⟩ := exists_around_trim entry
      by_cases blank : trim entry = []
      · rw [readEntries_cons_of_blank blank]
        refine .blank (fun c hc => ?_) ih
        rw [around, blank, List.append_nil] at hc
        exact (List.mem_append.mp hc).elim (before_blank c) (after_blank c)
      · rw [readEntries_cons blank]
        have named : Spells ((before ++ (String.ofList (trim entry)).toList ++ after) :: entries)
            (String.ofList (trim entry) :: readEntries entries) :=
          .name before_blank after_blank ih
        rwa [String.toList_ofList, ← around] at named

theorem isName_of_mem_readEntries {entries : List (List Char)}
    (solid : ∀ entry ∈ entries, ',' ∉ entry) {name : String} (h : name ∈ readEntries entries) :
    IsName name := by
  simp only [readEntries, List.mem_map, List.mem_filter, Bool.not_eq_true',
    List.isEmpty_eq_false_iff] at h
  obtain ⟨_, ⟨⟨entry, he, rfl⟩, nonempty⟩, rfl⟩ := h
  obtain ⟨before, after, -, -, around⟩ := exists_around_trim entry
  constructor
  case nonempty => simpa using nonempty
  case comma =>
    rw [String.toList_ofList]
    intro hc
    apply solid entry he
    rw [around]
    simp [hc]
  case trimmed =>
    rw [String.toList_ofList]
    exact trimmed_trim entry

/-- The names that are read from a text are those that it lists. -/
theorem readNames_eq_iff {raw : String} {names : List String} :
    readNames raw = names ↔ (∀ name ∈ names, IsName name) ∧ Lists raw names := by
  rw [readNames_eq]
  constructor
  · rintro rfl
    exact ⟨fun _ => isName_of_mem_readEntries fun _ => not_mem_of_mem_splitOn,
      _, (List.intercalate_splitOn ',').symm, spells_readEntries _⟩
  · rintro ⟨proper, entries, written, spells⟩
    rw [written]
    cases entries with
    | nil =>
        cases spells
        rfl
    | cons entry entries =>
        rw [List.splitOn_intercalate ',' (spells.comma_not_mem proper) (List.cons_ne_nil _ _)]
        exact spells.readEntries_eq proper

/-! ## One option and its variable -/

theorem ignored_inj {key key' raw raw' : String} :
    ignored key raw = ignored key' raw' ↔ key = key' ∧ raw = raw' := by
  simp [ignored]

theorem complaint_eq_some_iff {α : Type} {env : Environment} {key : String}
    {read : String → Option α} {remark : Remark} :
    complaint env key read = some remark ↔
      ∃ raw, env key = some raw ∧ read raw = none ∧ ignored key raw = remark := by
  unfold complaint
  cases env key with
  | none => simp
  | some raw => simp

theorem mem_complaints_iff {env : Environment} {remark : Remark} :
    remark ∈ complaints env ↔
      complaint env depthKey readDepth = some remark ∨
        complaint env warnKey readFlag = some remark := by
  simp [complaints]

/-- Whether an option is set by a variable and by nothing else. -/
structure SetBy {α : Type} (option : Options → α) (key : String) : Prop where
  /-- The option comes of what it was and of the variable. -/
  own : ∀ {o o' : Options} {env env' : Environment}, option o = option o' → env key = env' key →
    option (o.overlay env) = option (o'.overlay env')
  /-- A variable that is absent or reported leaves the option as it was. -/
  kept : ∀ {o : Options} {env : Environment},
    env key = none ∨ (∃ raw, ignored key raw ∈ complaints env) → option (o.overlay env) = option o
  /-- Any other variable decides, whatever the option was. -/
  taken : ∀ {o o' : Options} {env : Environment}, env key ≠ none →
    (∀ raw, ignored key raw ∉ complaints env) → option (o.overlay env) = option (o'.overlay env)

/-- An option is set by the variable that is read for it, if what cannot be read is reported. -/
theorem setBy_of_read {α : Type} {option : Options → α} {key : String} {read : String → Option α}
    (reads : ∀ o env, option (overlay o env) = ((env key).bind read).getD (option o))
    (reports : ∀ env raw, ignored key raw ∈ complaints env ↔ env key = some raw ∧ read raw = none) :
    SetBy option key := by
  constructor
  case own =>
    intro o o' env env' same variable_same
    rw [reads, reads, same, variable_same]
  case kept =>
    rintro o env (absent | ⟨raw, reported⟩)
    · rw [reads, absent, Option.bind_none, Option.getD_none]
    · obtain ⟨present, unread⟩ := (reports env raw).mp reported
      rw [reads, present, Option.bind_some, unread, Option.getD_none]
  case taken =>
    intro o o' env present unreported
    obtain ⟨raw, value⟩ := Option.ne_none_iff_exists'.mp present
    have readable : read raw ≠ none := fun unread =>
      unreported raw ((reports env raw).mpr ⟨value, unread⟩)
    obtain ⟨setting, hs⟩ := Option.ne_none_iff_exists'.mp readable
    rw [reads, reads, value, Option.bind_some, hs, Option.getD_some, Option.getD_some]

theorem setBy_maxLoadDepth : SetBy maxLoadDepth depthKey := by
  refine setBy_of_read (fun _ _ => rfl) fun env raw => ?_
  have other : warnKey ≠ depthKey := by decide
  simp [mem_complaints_iff, complaint_eq_some_iff, ignored_inj, other]

theorem setBy_warnOnRepublish : SetBy warnOnRepublish warnKey := by
  refine setBy_of_read (fun _ _ => rfl) fun env raw => ?_
  have other : depthKey ≠ warnKey := by decide
  simp [mem_complaints_iff, complaint_eq_some_iff, ignored_inj, other]

/-- Every text is a list of names, so this variable is never reported. -/
theorem setBy_preload : SetBy preload preloadKey := by
  let read : String → Option (List String) := fun raw => some (readNames raw)
  have reads : ∀ o env, preload (overlay o env) = ((env preloadKey).bind read).getD o.preload := by
    intro o env
    cases h : env preloadKey <;> simp [overlay, read, h]
  refine setBy_of_read reads fun env raw => ?_
  have others : depthKey ≠ preloadKey ∧ warnKey ≠ preloadKey := by decide
  simp [mem_complaints_iff, complaint_eq_some_iff, ignored_inj, others, read]

/-! ## All options -/

theorem overlay_overlay (o : Options) (env : Environment) :
    (o.overlay env).overlay env = o.overlay env := by
  have again : ∀ {α : Type} (setting : Option α) (base : α),
      setting.getD (setting.getD base) = setting.getD base := by
    intro α setting base
    cases setting <;> rfl
  simp only [overlay, again]

theorem readDepth_pos {raw : String} {depth : Nat} (h : readDepth raw = some depth) :
    1 ≤ depth := by
  unfold readDepth at h
  split at h
  · cases h
    omega
  · cases h

theorem maxLoadDepth_overlay_pos {o : Options} (positive : 1 ≤ o.maxLoadDepth) (env : Environment) :
    1 ≤ (o.overlay env).maxLoadDepth := by
  show 1 ≤ ((env depthKey).bind readDepth).getD o.maxLoadDepth
  cases h : (env depthKey).bind readDepth with
  | none => exact positive
  | some depth =>
      obtain ⟨raw, -, read⟩ := Option.bind_eq_some_iff.mp h
      exact readDepth_pos read

/-- Setting options from the environment a second time changes nothing more. Each option is set by
a variable of its own, or stays as it was if the variable is absent or reported. A load depth that
is positive stays so. The names that are read from a text are those that it lists. -/
theorem overlay_exact :
    (∀ (o : Options) (env : Environment), (o.overlay env).overlay env = o.overlay env) ∧
      SetBy maxLoadDepth depthKey ∧ SetBy warnOnRepublish warnKey ∧ SetBy preload preloadKey ∧
      (∀ (o : Options) (env : Environment),
        1 ≤ o.maxLoadDepth → 1 ≤ (o.overlay env).maxLoadDepth) ∧
      ∀ (o : Options) (env : Environment) (raw : String), env preloadKey = some raw →
        ∀ names, (o.overlay env).preload = names ↔
          (∀ name ∈ names, IsName name) ∧ Lists raw names := by
  refine ⟨overlay_overlay, setBy_maxLoadDepth, setBy_warnOnRepublish, setBy_preload,
    fun _ env positive => maxLoadDepth_overlay_pos positive env, fun o env raw value names => ?_⟩
  rw [← readNames_eq_iff]
  simp [overlay, value]

def untidyList : String := ",\u2003A\t, ,B-MIB,,A"

/-- A depth that is refused, a flag in capitals, and a list with white space and blank entries. -/
def untidy : Environment := fun key =>
  if key = depthKey then some "0"
  else if key = warnKey then some " ON "
  else if key = preloadKey then some untidyList
  else none

/-- A depth with a sign and zeros, and a flag that is refused. -/
def signed : Environment := fun key =>
  if key = depthKey then some "\t+0012 "
  else if key = warnKey then some "maybe"
  else none

theorem lists_untidyList : Lists untidyList ["A", "B-MIB", "A"] := by
  have bare : ∀ {name entries names}, Spells entries names →
      Spells (name.toList :: entries) (name :: names) := fun rest => by
    have none : AllBlank [] := by decide
    simpa using Spells.name none none rest
  refine ⟨[[], ['\u2003'] ++ "A".toList ++ ['\t'], [' '], "B-MIB".toList, [], "A".toList],
    by decide, ?_⟩
  exact .blank (by decide) (.name (by decide) (by decide)
    (.blank (by decide) (bare (.blank (by decide) (bare .nil)))))

theorem isName_of_mem_untidyList : ∀ name ∈ ["A", "B-MIB", "A"], IsName name := by
  have a : IsName "A" := ⟨by decide, by decide, by rintro _ ⟨⟩; decide, by rintro _ ⟨⟩; decide⟩
  have b : IsName "B-MIB" :=
    ⟨by decide, by decide, by rintro _ ⟨⟩; decide, by rintro _ ⟨⟩; decide⟩
  simp [a, b]

theorem complaints_untidy : complaints untidy = [ignored depthKey "0"] := by decide +kernel

theorem complaints_signed : complaints signed = [ignored warnKey "maybe"] := by decide +kernel

/-- The first environment sets the flag and the list and leaves the depth, the second one does it the
other way round. -/
theorem overlay_exact_of_untidy :
    let base : Options := ⟨7, false, ["X"]⟩
    complaints untidy = [ignored depthKey "0"] ∧
      base.overlay untidy = ⟨7, true, ["A", "B-MIB", "A"]⟩ ∧
      complaints signed = [ignored warnKey "maybe"] ∧
      base.overlay signed = ⟨12, false, ["X"]⟩ ∧
      1 ≤ (base.overlay signed).maxLoadDepth ∧
      (base.overlay untidy).overlay untidy = base.overlay untidy := by
  intro base
  obtain ⟨again, depth, flag, preloaded, positive, names⟩ := overlay_exact
  have elsewhere : warnKey ≠ depthKey := by decide
  have first : base.overlay untidy = ⟨7, true, ["A", "B-MIB", "A"]⟩ := by
    have kept : (base.overlay untidy).maxLoadDepth = 7 :=
      depth.kept (.inr ⟨"0", by rw [complaints_untidy]; exact .head _⟩)
    have taken : (base.overlay untidy).warnOnRepublish =
        ((default : Options).overlay untidy).warnOnRepublish :=
      flag.taken (by decide) fun raw => by simp [complaints_untidy, ignored_inj, elsewhere]
    have set : ((default : Options).overlay untidy).warnOnRepublish = true := by decide +kernel
    have listed : (base.overlay untidy).preload = ["A", "B-MIB", "A"] :=
      (names base untidy untidyList rfl _).mpr ⟨isName_of_mem_untidyList, lists_untidyList⟩
    exact (Options.mk.injEq ..).mpr ⟨kept, taken.trans set, listed⟩
  have second : base.overlay signed = ⟨12, false, ["X"]⟩ := by
    have taken : (base.overlay signed).maxLoadDepth =
        ((default : Options).overlay signed).maxLoadDepth :=
      depth.taken (by decide) fun raw => by simp [complaints_signed, ignored_inj, elsewhere.symm]
    have set : ((default : Options).overlay signed).maxLoadDepth = 12 := by decide +kernel
    have kept : (base.overlay signed).warnOnRepublish = false :=
      flag.kept (.inr ⟨"maybe", by rw [complaints_signed]; exact .head _⟩)
    have absent : (base.overlay signed).preload = ["X"] := preloaded.kept (.inl (by decide))
    exact (Options.mk.injEq ..).mpr ⟨taken.trans set, kept, absent⟩
  exact ⟨complaints_untidy, first, complaints_signed, second, positive base signed (by decide),
    again base untidy⟩

end Options

end MibLinker

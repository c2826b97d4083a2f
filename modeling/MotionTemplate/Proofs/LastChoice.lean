import MotionTemplate.CommandLine.Customizing
import MotionTemplate.Proofs.Blank
import MotionTemplate.Proofs.KeyMap
import MotionTemplate.Proofs.StoredText

/-! Choices of a command line. Every pair must name a placeholder; of several pairs for one
placeholder the last one counts, and what is not chosen is as in the file. -/
namespace MotionTemplate.CommandLine

/-- What stands in front of the first `=` of a text, and what stands behind it. -/
structure SplitsInto (text front value : String) : Prop where
  toList_eq : text.toList = front.toList ++ '=' :: value.toList
  first : '=' ∉ front.toList

/-- A pair for an id: the id, with or without white space around it, stands in front of the first
`=`. -/
def Assigns (text id value : String) : Prop :=
  ∃ front, SplitsInto text front value ∧ Text.isBlankText front = false ∧ Text.trim front = id

/-- No pair: there is no `=`, or nothing but white space in front of the first one. -/
def Malformed (text : String) : Prop :=
  '=' ∉ text.toList ∨ ∃ front value, SplitsInto text front value ∧ Text.isBlankText front

/-- No pair of a list is for the id. -/
def Unassigned (id : String) (pairs : List String) : Prop :=
  ∀ text ∈ pairs, ∀ value, ¬ Assigns text id value

/-- The last pair of a list that is for the id gives this value. -/
def LastAssigns (id value : String) (pairs : List String) : Prop :=
  ∃ before text after, pairs = before ++ text :: after ∧ Assigns text id value ∧
    Unassigned id after

section

variable {text id value front : String}

private theorem dropWhile_of_splits (h : SplitsInto text front value) :
    text.toList.takeWhile (· ≠ '=') = front.toList ∧
      text.toList.dropWhile (· ≠ '=') = '=' :: value.toList := by
  have hfront : ∀ c ∈ front.toList, decide (c ≠ '=') = true := fun c hc =>
    decide_eq_true fun he => h.first (he ▸ hc)
  rw [h.toList_eq, List.takeWhile_append_of_pos hfront, List.dropWhile_append_of_pos hfront]
  simp

theorem pair?_of_splits (h : SplitsInto text front value) :
    pair? text = if Text.isBlankText front then none else some (Text.trim front, value) := by
  obtain ⟨hfront, hvalue⟩ := dropWhile_of_splits h
  simp only [pair?, hfront, hvalue, String.ofList_toList, Text.trim_eq_empty_iff]

private theorem pair?_of_not_mem (h : '=' ∉ text.toList) : pair? text = none := by
  have hnone : text.toList.dropWhile (· ≠ '=') = [] :=
    List.dropWhile_eq_nil_iff.2 fun c hc => decide_eq_true fun he => h (he ▸ hc)
  simp only [pair?, hnone]

private theorem exists_splits (h : '=' ∈ text.toList) : ∃ front value, SplitsInto text front value := by
  obtain ⟨front, value, htext, hfirst⟩ := List.eq_append_cons_of_mem h
  exact ⟨.ofList front, .ofList value, by simpa using htext, by simpa using hfirst⟩

theorem pair?_eq_none_iff : pair? text = none ↔ Malformed text := by
  constructor
  · intro h
    by_cases hmem : '=' ∈ text.toList
    · obtain ⟨front, value, hsplits⟩ := exists_splits hmem
      rw [pair?_of_splits hsplits] at h
      split at h
      · next hblank => exact .inr ⟨front, value, hsplits, hblank⟩
      · exact nomatch h
    · exact .inl hmem
  · rintro (hmem | ⟨front, value, hsplits, hblank⟩)
    · exact pair?_of_not_mem hmem
    · rw [pair?_of_splits hsplits, if_pos hblank]

theorem pair?_eq_some_iff : pair? text = some (id, value) ↔ Assigns text id value := by
  constructor
  · intro h
    by_cases hmem : '=' ∈ text.toList
    · obtain ⟨front, value', hsplits⟩ := exists_splits hmem
      rw [pair?_of_splits hsplits] at h
      split at h
      · exact nomatch h
      · next hblank =>
        obtain ⟨rfl, rfl⟩ := Prod.mk.inj (Option.some.inj h)
        exact ⟨front, hsplits, eq_false_of_ne_true hblank, rfl⟩
    · exact nomatch (pair?_of_not_mem hmem).symm.trans h
  · rintro ⟨front, hsplits, hblank, rfl⟩
    rw [pair?_of_splits hsplits, hblank, if_neg Bool.false_ne_true]

instance : Decidable (Malformed text) := decidable_of_iff _ pair?_eq_none_iff

instance : Decidable (Assigns text id value) := decidable_of_iff _ pair?_eq_some_iff

end

/-! ### One pair after the other -/

section

variable {text id value : String} {pairs : List String}

private theorem unassigned_cons_iff :
    Unassigned id (text :: pairs) ↔ (∀ value, ¬ Assigns text id value) ∧ Unassigned id pairs :=
  List.forall_mem_cons

/-- A pair is the last one for its id only if none for the same id follows. -/
private theorem lastAssigns_cons_iff :
    LastAssigns id value (text :: pairs) ↔
      LastAssigns id value pairs ∨ Assigns text id value ∧ Unassigned id pairs := by
  constructor
  · rintro ⟨before, last, after, heq, hassigns, hafter⟩
    cases before with
    | nil =>
      obtain ⟨rfl, rfl⟩ := List.cons.inj heq
      exact .inr ⟨hassigns, hafter⟩
    | cons first before =>
      obtain ⟨rfl, rfl⟩ := List.cons.inj heq
      exact .inl ⟨before, last, after, rfl, hassigns, hafter⟩
  · rintro (⟨before, last, after, rfl, hassigns, hafter⟩ | ⟨hassigns, hafter⟩)
    · exact ⟨text :: before, last, after, rfl, hassigns, hafter⟩
    · exact ⟨[], text, pairs, rfl, hassigns, hafter⟩

end

namespace Choices

variable {c : Customization} {pairs : List String}

/-- A pair that is none ends the setting, however many are set before it. -/
private theorem setPairs_of_malformed (h : ∃ text ∈ pairs, Malformed text) :
    ∃ text ∈ pairs, Malformed text ∧ setPairs c pairs = .error (.noPair text) := by
  induction pairs generalizing c with
  | nil =>
    obtain ⟨text, hmem, -⟩ := h
    exact absurd hmem List.not_mem_nil
  | cons text rest ih =>
    rw [setPairs]
    cases hpair : pair? text with
    | none => exact ⟨text, List.mem_cons_self, pair?_eq_none_iff.1 hpair, rfl⟩
    | some pair =>
      have hrest : ∃ other ∈ rest, Malformed other := by
        obtain ⟨other, hmem, hother⟩ := h
        rcases List.mem_cons.1 hmem with rfl | hmem
        · exact nomatch (pair?_eq_none_iff.2 hother).symm.trans hpair
        · exact ⟨other, hmem, hother⟩
      obtain ⟨other, hmem, hother, herror⟩ := ih (c := c.set pair.1 pair.2) hrest
      exact ⟨other, List.mem_cons_of_mem _ hmem, hother, herror⟩

/-- Well-formed pairs are all set. Of the values for an id the last one stays. -/
private theorem setPairs_of_wellFormed (h : ∀ text ∈ pairs, ¬ Malformed text) :
    ∃ built, setPairs c pairs = .ok built ∧ built.theme = c.theme ∧ built.duration = c.duration ∧
      ∀ id value, built.value? id = some value ↔
        LastAssigns id value pairs ∨ Unassigned id pairs ∧ c.value? id = some value := by
  induction pairs generalizing c with
  | nil =>
    refine ⟨c, rfl, rfl, rfl, fun id value => ?_⟩
    have hnone : ¬ LastAssigns id value [] := by
      rintro ⟨before, text, after, heq, -⟩
      exact List.append_ne_nil_of_right_ne_nil before (List.cons_ne_nil text after) heq.symm
    rw [or_iff_right hnone]
    exact (and_iff_right (List.forall_mem_nil _)).symm
  | cons text rest ih =>
    obtain ⟨htext, hrest⟩ := List.forall_mem_cons.1 h
    obtain ⟨⟨name, set⟩, hpair⟩ := Option.ne_none_iff_exists'.1 (mt pair?_eq_none_iff.1 htext)
    have hassigns (id value : String) : Assigns text id value ↔ name = id ∧ set = value := by
      rw [← pair?_eq_some_iff, hpair, Option.some_inj, Prod.mk.injEq]
    obtain ⟨built, hbuilt, htheme, hduration, hvalue⟩ := ih (c := c.set name set) hrest
    refine ⟨built, ?_, htheme, hduration, fun id value => ?_⟩
    · simp only [setPairs, hpair, hbuilt]
    · have hset : (c.set name set).value? id = if id = name then some set else c.value? id :=
        KeyMap.find?_insert _ _ _ _
      rw [hvalue, hset, lastAssigns_cons_iff, unassigned_cons_iff]
      simp only [hassigns]
      by_cases hname : id = name
      · subst hname
        rw [if_pos rfl, Option.some_inj]
        have hnot : ¬ ∀ v, ¬ (id = id ∧ set = v) := fun h => h set ⟨rfl, rfl⟩
        tauto
      · rw [if_neg hname]
        have hother (v : String) : ¬ (name = id ∧ set = v) := fun h => hname h.1.symm
        have hnot := hother value
        tauto

/-- What the choices are put on top of: the customization in the file, or an empty one. -/
def StartsFrom (choices : Choices) (files : FileTree) (base : Customization) : Prop :=
  match choices.file with
  | none => base = .empty
  | some path =>
    ∃ text, files.readText path = .ok text ∧ Json.decode? Customization.decoder text = some base

private theorem build_of_startsFrom {choices : Choices} {files : FileTree} {base : Customization}
    (h : choices.StartsFrom files base) : choices.build files = choices.apply base := by
  rw [StartsFrom] at h
  rw [build]
  cases hfile : choices.file with
  | none =>
    rw [hfile] at h
    rw [h]
    rfl
  | some path =>
    rw [hfile] at h
    obtain ⟨text, hread, hdecoded⟩ := h
    have hbase : readFile files path = .ok base := by
      simp only [readFile, mapError_eq_ok_iff.2 hread, hdecoded, bind, Except.bind, pure,
        Except.pure]
    simp only [Option.elim_some, hbase, bind, Except.bind]

/-- On top of a customization that can be read, choices are refused exactly when one of them is no
pair. What is built otherwise has for every id the value of the last pair for it, or, when none is
for it, what the file has; a theme or a duration that is chosen replaces that of the file. -/
theorem last_choice_wins (choices : Choices) (files : FileTree) {base : Customization}
    (hbase : choices.StartsFrom files base) :
    ((∃ text ∈ choices.pairs, Malformed text) →
      ∃ text ∈ choices.pairs, Malformed text ∧ choices.build files = .error (.noPair text)) ∧
    ((∀ text ∈ choices.pairs, ¬ Malformed text) →
      ∃ built, choices.build files = .ok built ∧
        built.theme = choices.theme.or base.theme ∧
        built.duration = choices.duration.or base.duration ∧
        ∀ id value, built.value? id = some value ↔
          LastAssigns id value choices.pairs ∨
            Unassigned id choices.pairs ∧ base.value? id = some value) := by
  rw [build_of_startsFrom hbase]
  exact ⟨setPairs_of_malformed, setPairs_of_wellFormed⟩

/-- A customization with a theme and two texts. -/
private def chosenText : String :=
  "\x7b\"theme_id\":\"gold\",\"headline\":\"Hello\",\"cta\":\"Call\"\x7d"

private def chosenFiles : FileTree := ⟨[], [(["chosen.json"], .file (.text chosenText))]⟩

private def greeting (pairs : List String) : Choices := ⟨some "chosen.json", none, some 30.0, pairs⟩

/-- The last of three headlines is taken as it is, and the theme of the file stays. With a pair that
is for no id there is no customization. -/
theorem last_headline_wins :
    (∃ built, (greeting ["headline=Namaste", "tag=new", " headline =a=b "]).build chosenFiles =
        .ok built ∧
      built.theme = some "gold" ∧ built.duration = some 30.0 ∧
      built.value? "headline" = some "a=b ") ∧
    (greeting ["tag=new", " =a"]).build chosenFiles = .error (.noPair " =a") := by
  have hgold : (Json.decode? Customization.decoder chosenText).bind (·.theme) = some "gold" := by
    decide +kernel
  obtain ⟨base, hdecoded, hgold⟩ := Option.bind_eq_some_iff.1 hgold
  have hbase (pairs : List String) : (greeting pairs).StartsFrom chosenFiles base :=
    ⟨chosenText, by decide +kernel, hdecoded⟩
  constructor
  · obtain ⟨built, hbuilt, htheme, hduration, hvalue⟩ :=
      (last_choice_wins _ chosenFiles (hbase ["headline=Namaste", "tag=new", " headline =a=b "])).2
        (by decide +kernel)
    have hlast : LastAssigns "headline" "a=b "
        ["headline=Namaste", "tag=new", " headline =a=b "] :=
      ⟨["headline=Namaste", "tag=new"], " headline =a=b ", [], rfl, by decide +kernel,
        List.forall_mem_nil _⟩
    exact ⟨built, hbuilt, htheme.trans hgold, hduration, (hvalue _ _).2 (.inl hlast)⟩
  · obtain ⟨text, hmem, htext, herror⟩ :=
      (last_choice_wins _ chosenFiles (hbase ["tag=new", " =a"])).1
        ⟨" =a", by decide, by decide +kernel⟩
    rcases List.mem_pair.1 hmem with rfl | rfl
    · exact absurd htext (by decide +kernel)
    · exact herror

end Choices

end MotionTemplate.CommandLine

/-! Markers: symbolic references that stand in a layer's fields until a composition is resolved. -/
namespace MotionTemplate

/-- What a marker refers to. -/
inductive Token where
  /-- The composition's duration in seconds. -/
  | currentDuration
  | themeColor (name : String)
  | themeFont (name : String)
  /-- A value that the caller supplies. -/
  | placeholder (id : String)
deriving DecidableEq

namespace Token

def durationMarker : String := "$duration"
def colorLead : String := "$theme.colors."
def fontLead : String := "$theme.fonts."
def placeholderLead : String := "$placeholder."

/-- The rest of a text after a lead that it starts with. -/
def afterLead? : (lead text : List Char) → Option (List Char)
  | [], text => some text
  | _ :: _, [] => none
  | a :: lead, b :: text => if a = b then afterLead? lead text else none

/-- What follows a lead, if a text starts with it and goes on. -/
def named? (lead text : String) : Option String :=
  match afterLead? lead.toList text.toList with
  | some (c :: rest) => some (String.ofList (c :: rest))
  | _ => none

/-- The token of a marker. A marker without a name is plain text. -/
def parse (text : String) : Option Token :=
  if text = durationMarker then some .currentDuration
  else match named? colorLead text with
  | some name => some (.themeColor name)
  | none => match named? fontLead text with
  | some name => some (.themeFont name)
  | none => (named? placeholderLead text).map .placeholder

/-- The marker of a token. -/
def marker : Token → String
  | currentDuration => durationMarker
  | themeColor name => colorLead ++ name
  | themeFont name => fontLead ++ name
  | placeholder id => placeholderLead ++ id

/-- The name that a marker carries. -/
def name? : Token → Option String
  | currentDuration => none
  | themeColor name | themeFont name | placeholder name => some name

private def rank : Token → Nat
  | currentDuration => 0
  | themeColor _ => 1
  | themeFont _ => 2
  | placeholder _ => 3

/-- The order of tokens: by kind first, then by name. -/
def before (a b : Token) : Bool :=
  a.rank < b.rank || (a.rank == b.rank && decide (a.name?.getD "" < b.name?.getD ""))

private theorem before_iff {a b : Token} :
    a.before b ↔ a.rank < b.rank ∨ a.rank = b.rank ∧ a.name?.getD "" < b.name?.getD "" := by
  simp [before]

theorem before_irrefl (t : Token) : ¬ t.before t := by
  intro h
  rcases before_iff.1 h with hlt | ⟨-, hlt⟩
  · exact Nat.lt_irrefl _ hlt
  · exact String.lt_irrefl _ hlt

theorem before_trans {a b c : Token} (hab : a.before b) (hbc : b.before c) : a.before c := by
  rw [before_iff] at *
  rcases hab with hab | ⟨hab, hname⟩
  · exact .inl (by omega)
  · rcases hbc with hbc | ⟨hbc, hname'⟩
    · exact .inl (by omega)
    · exact .inr ⟨hab.trans hbc, String.lt_trans hname hname'⟩

/-- Tokens of one kind with one name are the same. -/
private theorem eq_of_rank_of_name {a b : Token} (hrank : a.rank = b.rank)
    (hname : a.name?.getD "" = b.name?.getD "") : a = b := by
  cases a <;> cases b <;> simp_all [rank, name?]

theorem before_of_ne {a b : Token} (hne : a ≠ b) (h : ¬ a.before b) : b.before a := by
  rw [before_iff, not_or] at h
  rw [before_iff]
  by_cases hrank : a.rank = b.rank
  · refine .inr ⟨hrank.symm, ?_⟩
    rcases Std.lt_trichotomy (a.name?.getD "") (b.name?.getD "") with hlt | heq | hlt
    · exact absurd ⟨hrank, hlt⟩ h.2
    · exact absurd (eq_of_rank_of_name hrank heq) hne
    · exact hlt
  · exact .inl (by omega)

/-- Puts a token into its place in an ascending list, if it is not there yet. -/
def insertOnce (t : Token) : List Token → List Token
  | [] => [t]
  | u :: rest =>
    if t = u then u :: rest
    else if t.before u then t :: u :: rest
    else u :: insertOnce t rest

theorem mem_insertOnce {t u : Token} {tokens : List Token} :
    t ∈ insertOnce u tokens ↔ t = u ∨ t ∈ tokens := by
  induction tokens with
  | nil => simp [insertOnce]
  | cons v rest ih =>
    rw [insertOnce]
    split
    · next h => simp [h]
    · split
      · simp
      · simp only [List.mem_cons, ih]
        exact or_left_comm

theorem pairwise_insertOnce (t : Token) {tokens : List Token}
    (h : tokens.Pairwise fun a b => a.before b) :
    (insertOnce t tokens).Pairwise fun a b => a.before b := by
  induction tokens with
  | nil => exact List.pairwise_singleton _ _
  | cons u rest ih =>
    obtain ⟨first, tail⟩ := List.pairwise_cons.1 h
    rw [insertOnce]
    split
    · exact h
    · next hne =>
      split
      · next hlt =>
        refine List.pairwise_cons.2 ⟨fun v hv => ?_, h⟩
        rcases List.mem_cons.1 hv with rfl | hv
        · exact hlt
        · exact before_trans hlt (first v hv)
      · next hlt =>
        refine List.pairwise_cons.2 ⟨fun v hv => ?_, ih tail⟩
        rcases mem_insertOnce.1 hv with rfl | hv
        · exact before_of_ne hne hlt
        · exact first v hv

/-- The distinct tokens of a list in ascending order. -/
def distinct (tokens : List Token) : List Token := tokens.foldr insertOnce []

theorem mem_distinct {t : Token} {tokens : List Token} : t ∈ distinct tokens ↔ t ∈ tokens := by
  induction tokens with
  | nil => rfl
  | cons u rest ih => rw [distinct, List.foldr_cons, mem_insertOnce, ← distinct, ih, List.mem_cons]

theorem pairwise_distinct (tokens : List Token) :
    (distinct tokens).Pairwise fun a b => a.before b := by
  induction tokens with
  | nil => exact .nil
  | cons u rest ih => exact pairwise_insertOnce u ih

/-- Puts a token into its place in an ascending list, beside its equals. -/
private def insertBeside (t : Token) : List Token → List Token
  | [] => [t]
  | u :: rest => if t.before u then t :: u :: rest else u :: insertBeside t rest

/-- The tokens of a list in ascending order. -/
def sorted (tokens : List Token) : List Token := tokens.foldl (fun done t => insertBeside t done) []

end Token

end MotionTemplate

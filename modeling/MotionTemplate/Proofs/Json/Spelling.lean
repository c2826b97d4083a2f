import MotionTemplate.Proofs.Json.NumberText
import MotionTemplate.Proofs.Json.Rereading

/-! Texts that spell data. A text spells a value when the reader takes the value from its front and
stops behind it, with fuel for as many characters; both ways of writing data spell it. -/
namespace MotionTemplate.Json
open Number (Ends)

private theorem hexValue?_hexDigit : ∀ n : Fin 16, hexValue? (hexDigit n) = some n.val := by decide

/-- A character is read back from its escape. -/
private theorem characters?_escapeChar (fuel : Nat) (done : List Char) (c : Char) (text : Rest) :
    characters? (fuel + 1) done true (escapeChar c ++ text) =
      characters? fuel (c :: done) true text := by
  have hchar {d : Char} (h : c.toNat = d.toNat) : c = d := Char.toNat_inj.1 h
  -- The cases are the tests of `escapeChar` in their order; each short escape reads back by
  -- computation, and only the four digits of a control character need an argument.
  unfold escapeChar
  split
  · next h => subst h; rfl
  split
  · next h => subst h; rfl
  split
  · next h => subst h; rfl
  split
  · next h => subst h; rfl
  split
  · next h => subst h; rfl
  split
  · next h => rw [hchar (d := '\x08') h]; rfl
  split
  · next h => rw [hchar (d := '\x0c') h]; rfl
  split
  · next h =>
    have h₁ := hexValue?_hexDigit ⟨c.toNat / 16, by omega⟩
    have h₂ := hexValue?_hexDigit ⟨c.toNat % 16, by omega⟩
    have hunit : ((0 * 16 + 0) * 16 + c.toNat / 16) * 16 + c.toNat % 16 = c.toNat := by omega
    have hhex : hex4? ('0' :: '0' :: hexDigit (c.toNat / 16) :: hexDigit (c.toNat % 16) :: text) =
        some (c.toNat, text) := by
      rw [hex4?, show hexValue? '0' = some 0 from rfl, h₁, h₂]
      simp only [Option.bind_eq_bind, Option.bind_some, hunit]
    have hescape : escape? ('u' :: '0' :: '0' :: hexDigit (c.toNat / 16) ::
        hexDigit (c.toNat % 16) :: text) = some (some c, text) := by
      have hlow : isLow c.toNat = false := by simp [isLow]; omega
      have hhigh : isHigh c.toNat = false := by simp [isHigh]; omega
      simp [escape?, hhex, hlow, hhigh]
    simp only [List.cons_append, List.nil_append, characters?, hescape]
  · next hquote hback _ _ _ _ _ hlow =>
    rw [List.singleton_append, characters?, if_neg hlow]
    · exact hquote
    · exact hback

private theorem characters?_append {cs : List Char} {fuel : Nat} (h : cs.length < fuel)
    (done : List Char) (rest : Rest) :
    characters? fuel done true (cs.flatMap escapeChar ++ '"' :: rest) =
      some (some (String.ofList (done.reverse ++ cs)), rest) := by
  induction cs generalizing fuel done with
  | nil =>
    obtain ⟨fuel, rfl⟩ := Nat.exists_eq_succ_of_ne_zero (Nat.ne_of_gt h)
    rw [List.append_nil]
    rfl
  | cons c cs ih =>
    rw [List.length_cons] at h
    obtain ⟨fuel, rfl⟩ := Nat.exists_eq_succ_of_ne_zero (show fuel ≠ 0 by omega)
    rw [List.flatMap_cons, List.append_assoc, characters?_escapeChar, ih (by omega),
      List.reverse_cons, List.append_assoc]
    rfl

private theorem length_escape (cs : List Char) : cs.length ≤ (cs.flatMap escapeChar).length := by
  induction cs with
  | nil => exact Nat.le_refl 0
  | cons c cs ih =>
    have hc : 0 < (escapeChar c).length := by
      unfold escapeChar
      repeat' split
      all_goals exact Nat.succ_pos _
    rw [List.flatMap_cons, List.length_append, List.length_cons]
    omega

private theorem toList_quote (s : String) :
    (quote s).toList = '"' :: (s.toList.flatMap escapeChar ++ ['"']) := by
  simp only [quote, String.toList_append, String.toList_ofList]
  rfl

/-- The characters behind the first quote, with fuel for all of them. -/
private theorem characters?_quote (s : String) (rest : Rest) :
    characters? ((s.toList.flatMap escapeChar ++ '"' :: rest).length + 1) [] true
      (s.toList.flatMap escapeChar ++ '"' :: rest) = some (some s, rest) := by
  have hlen := length_escape s.toList
  rw [characters?_append (by rw [List.length_append]; omega), List.reverse_nil, List.nil_append,
    String.ofList_toList]

/-- White space between the parts of a text. -/
def White (text : List Char) : Prop := ∀ c ∈ text, c = ' ' ∨ c = '\n' ∨ c = '\t' ∨ c = '\r'

private theorem skip_append {white : List Char} (h : White white) (text : Rest) :
    skip (white ++ text) = skip text := by
  refine List.dropWhile_append_of_pos fun c hc => ?_
  rcases h c hc with rfl | rfl | rfl | rfl <;> rfl

private theorem skip_skip (text : Rest) : skip (skip text) = skip text :=
  List.dropWhile_idempotent _ text

private theorem ends_white {white : List Char} (h : White white) {c : Char} (rest : Rest)
    (hc : c = ',' ∨ c = ']' ∨ c = '\x7d') : Ends (white ++ c :: rest) := by
  have hfirst : ∀ d ∈ (white ++ c :: rest).head?, d = ' ' ∨ d = '\n' ∨ d = '\t' ∨ d = '\r' ∨
      d = ',' ∨ d = ']' ∨ d = '\x7d' := by
    cases white with
    | nil =>
      rintro d ⟨⟩
      tauto
    | cons w white =>
      rintro d ⟨⟩
      have hw := h w List.mem_cons_self
      tauto
  constructor <;> intro d hd <;>
    rcases hfirst d hd with rfl | rfl | rfl | rfl | rfl | rfl | rfl <;> decide

section

variable {fuel : Nat} {text : Rest}

private theorem readValue?_skip : readValue? fuel (skip text) = readValue? fuel text := by
  cases fuel with
  | zero => rw [readValue?, readValue?]
  | succ fuel => rw [readValue?, readValue?, skip_skip]

private theorem readItems?_skip : readItems? fuel (skip text) = readItems? fuel text := by
  cases fuel with
  | zero => rw [readItems?, readItems?]
  | succ fuel => rw [readItems?, readItems?, readValue?_skip]

private theorem readFields?_skip : readFields? fuel (skip text) = readFields? fuel text := by
  cases fuel with
  | zero => rw [readFields?, readFields?]
  | succ fuel => rw [readFields?, readFields?, skip_skip]

/-- Where an item is read, the list does not end. -/
private theorem skip_ne_of_readItems? {r : List Json × Rest} (h : readItems? fuel text = some r)
    (more : Rest) : skip text ≠ ']' :: more := by
  intro hskip
  cases fuel with
  | zero =>
    rw [readItems?] at h
    exact Option.some_ne_none r h.symm
  | succ fuel =>
    have hnone : readValue? fuel text = none := by
      rw [← readValue?_skip, hskip]
      cases fuel with
      | zero => rw [readValue?]
      | succ fuel => rw [readValue?]; rfl
    rw [readItems?, hnone] at h
    exact Option.some_ne_none r h.symm

private theorem skip_ne_of_readFields? {r : Option (List (String × Json)) × Rest}
    (h : readFields? fuel text = some r) (more : Rest) : skip text ≠ '\x7d' :: more := by
  intro hskip
  cases fuel with
  | zero =>
    rw [readFields?] at h
    exact Option.some_ne_none r h.symm
  | succ fuel =>
    rw [readFields?, hskip] at h
    exact Option.some_ne_none r h.symm

end

/-- The text gives the value, whatever follows that could not belong to a number. -/
def Spells (text : List Char) (j : Json) : Prop :=
  ∀ ⦃rest : Rest⦄, Ends rest → ∀ ⦃fuel : Nat⦄, text.length ≤ fuel →
    readValue? fuel (text ++ rest) = some (j, rest)

/-- The text gives the items of a list that is closed behind it. -/
def SpellsItems (text : List Char) (items : List Json) : Prop :=
  ∀ ⦃white : List Char⦄, White white → ∀ (rest : Rest) ⦃fuel : Nat⦄, text.length < fuel →
    readItems? fuel (text ++ (white ++ ']' :: rest)) = some (items, rest)

/-- The text gives the fields of an object that is closed behind it. -/
def SpellsFields (text : List Char) (fields : List (String × Json)) : Prop :=
  ∀ ⦃white : List Char⦄, White white → ∀ (rest : Rest) ⦃fuel : Nat⦄, text.length < fuel →
    readFields? fuel (text ++ (white ++ '\x7d' :: rest)) = some (some fields, rest)

section

variable {text more : List Char} {j : Json} {items : List Json}
  {fields : List (String × Json)}

/-- A text that spells a value is not empty, so that reading it takes one step. -/
private theorem spells_of_step (h : ∀ ⦃rest : Rest⦄, Ends rest → ∀ ⦃fuel : Nat⦄,
    text.length ≤ fuel + 1 → readValue? (fuel + 1) (text ++ rest) = some (j, rest)) :
    Spells text j := by
  intro rest hrest fuel hfuel
  cases fuel with
  | succ fuel => exact h hrest hfuel
  | zero =>
    have hnil : text = [] := List.eq_nil_of_length_eq_zero (Nat.le_zero.1 hfuel)
    have hread := @h [] Number.ends_nil 0 (Nat.le_succ_of_le hfuel)
    rw [hnil, readValue?] at hread
    exact absurd hread.symm (Option.some_ne_none _)

theorem Spells.of_white {white : List Char} (hw : White white) (h : Spells text j) :
    Spells (white ++ text) j := by
  intro rest hrest fuel hfuel
  rw [List.length_append] at hfuel
  rw [List.append_assoc, ← readValue?_skip, skip_append hw, readValue?_skip, h hrest (by omega)]

/-- Behind an item the text goes on at once, or after white space. -/
private theorem Spells.before {white : List Char} (h : Spells text j) (hw : White white) {c : Char}
    (hc : c = ',' ∨ c = ']' ∨ c = '\x7d') (rest : Rest) {fuel : Nat} (hfuel : text.length ≤ fuel) :
    ∃ left, readValue? fuel (text ++ (white ++ c :: rest)) = some (j, left) ∧
      skip left = c :: rest := by
  refine ⟨_, h (ends_white hw rest hc) hfuel, ?_⟩
  rw [skip_append hw]
  rcases hc with rfl | rfl | rfl <;> rfl

private theorem white_nil : White [] := fun _ hc => absurd hc List.not_mem_nil

theorem SpellsItems.single (h : Spells text j) : SpellsItems text [j] := by
  intro white hw rest fuel hfuel
  obtain ⟨fuel, rfl⟩ := Nat.exists_eq_succ_of_ne_zero (show fuel ≠ 0 by omega)
  obtain ⟨left, hvalue, hleft⟩ := h.before hw (.inr (.inl rfl)) rest (Nat.le_of_lt_succ hfuel)
  simp only [readItems?, hvalue, hleft]

theorem SpellsItems.cons (h : Spells text j) (hmore : SpellsItems more items) :
    SpellsItems (text ++ ',' :: more) (j :: items) := by
  intro white hw rest fuel hfuel
  rw [List.length_append, List.length_cons] at hfuel
  obtain ⟨fuel, rfl⟩ := Nat.exists_eq_succ_of_ne_zero (show fuel ≠ 0 by omega)
  obtain ⟨left, hvalue, hleft⟩ := h.before white_nil (.inl rfl) (more ++ (white ++ ']' :: rest))
    (show text.length ≤ fuel by omega)
  rw [List.nil_append] at hvalue
  have hrest := hmore hw rest (show more.length < fuel by omega)
  rw [List.append_assoc, List.cons_append]
  simp only [readItems?, hvalue, hleft, hrest, Option.map_some]

theorem Spells.array (h : SpellsItems text items) {white : List Char} (hw : White white) :
    Spells ('[' :: (text ++ (white ++ [']']))) (.array items) := by
  refine spells_of_step fun rest _ fuel hfuel => ?_
  simp only [List.length_cons, List.length_append] at hfuel
  have hitems := h hw rest (show text.length < fuel by omega)
  have hopen := skip_ne_of_readItems? hitems
  rw [← readItems?_skip] at hitems
  have htext : '[' :: (text ++ (white ++ [']'])) ++ rest =
      '[' :: (text ++ (white ++ ']' :: rest)) := by simp
  rw [htext, readValue?]
  simp only [show ∀ left, skip ('[' :: left) = '[' :: left from fun _ => rfl]
  rw [hitems]
  rfl

theorem spells_array_nil : Spells ['[', ']'] (.array []) := by
  refine spells_of_step fun rest _ fuel _ => ?_
  rw [readValue?]
  rfl

/-- A field is its name, a colon and its value. -/
private theorem readFields?_entry (name : String) {white left : List Char} (hw : White white)
    {fuel : Nat} {text : Rest} (hvalue : readValue? fuel text = some (j, left)) :
    readFields? (fuel + 1) (white ++ ((quote name).toList ++ ':' :: text)) =
      match skip left with
      | ',' :: rest => (readFields? fuel rest).map fun (fields, rest) =>
        ((do some ((name, j) :: (← fields))), rest)
      | '\x7d' :: rest => some (some [(name, j)], rest)
      | _ => none := by
  have htext : (quote name).toList ++ ':' :: text =
      '"' :: (name.toList.flatMap escapeChar ++ '"' :: ':' :: text) := by
    simp [toList_quote]
  have hname := characters?_quote name (':' :: text)
  rw [readFields?, skip_append hw, htext, show skip ('"' :: _) = '"' :: _ from rfl]
  simp only [hname, show skip (':' :: text) = ':' :: text from rfl, hvalue]
  rfl

theorem SpellsFields.single (name : String) (h : Spells text j) {white : List Char}
    (hw : White white) :
    SpellsFields (white ++ ((quote name).toList ++ ':' :: text)) [(name, j)] := by
  intro after hafter rest fuel hfuel
  simp only [List.length_append, List.length_cons] at hfuel
  obtain ⟨fuel, rfl⟩ := Nat.exists_eq_succ_of_ne_zero (show fuel ≠ 0 by omega)
  obtain ⟨left, hvalue, hleft⟩ := h.before hafter (.inr (.inr rfl)) rest
    (show text.length ≤ fuel by omega)
  have hentry := readFields?_entry name hw hvalue
  rw [hleft] at hentry
  simpa only [List.append_assoc, List.cons_append] using hentry

theorem SpellsFields.cons (name : String) (h : Spells text j) (hmore : SpellsFields more fields)
    {white : List Char} (hw : White white) :
    SpellsFields (white ++ ((quote name).toList ++ ':' :: (text ++ ',' :: more)))
      ((name, j) :: fields) := by
  intro after hafter rest fuel hfuel
  simp only [List.length_append, List.length_cons] at hfuel
  obtain ⟨fuel, rfl⟩ := Nat.exists_eq_succ_of_ne_zero (show fuel ≠ 0 by omega)
  obtain ⟨left, hvalue, hleft⟩ := h.before white_nil (.inl rfl) (more ++ (after ++ '\x7d' :: rest))
    (show text.length ≤ fuel by omega)
  have hentry := readFields?_entry name hw hvalue
  have hrest := hmore hafter rest (show more.length < fuel by omega)
  simp only [hleft, hrest, Option.map_some, Option.bind_eq_bind, Option.bind_some] at hentry
  simpa only [List.append_assoc, List.cons_append, List.nil_append] using hentry

theorem Spells.object (h : SpellsFields text fields) {white : List Char} (hw : White white) :
    Spells ('\x7b' :: (text ++ (white ++ ['\x7d']))) (.object fields) := by
  refine spells_of_step fun rest _ fuel hfuel => ?_
  simp only [List.length_cons, List.length_append] at hfuel
  have hfields := h hw rest (show text.length < fuel by omega)
  have hopen := skip_ne_of_readFields? hfields
  rw [← readFields?_skip] at hfields
  have htext : '\x7b' :: (text ++ (white ++ ['\x7d'])) ++ rest =
      '\x7b' :: (text ++ (white ++ '\x7d' :: rest)) := by simp
  rw [htext, readValue?]
  simp only [show ∀ left, skip ('\x7b' :: left) = '\x7b' :: left from fun _ => rfl]
  rw [hfields]
  rfl

theorem spells_object_nil : Spells ['\x7b', '\x7d'] (.object []) := by
  refine spells_of_step fun rest _ fuel _ => ?_
  rw [readValue?]
  rfl

private theorem spells_null : Spells (scalarText .null).toList .null := by
  refine spells_of_step fun rest _ fuel _ => ?_
  rw [readValue?]
  rfl

private theorem spells_bool (b : Bool) : Spells (scalarText (.bool b)).toList (.bool b) := by
  refine spells_of_step fun rest _ fuel _ => ?_
  cases b <;>
  · rw [readValue?]
    rfl

private theorem spells_number {n : Numeral} (h : n.Storable) :
    Spells (scalarText (.number n)).toList (.number n) :=
  spells_of_step fun _ hrest fuel _ => readValue?_numeralText h hrest fuel

private theorem spells_string (s : String) :
    Spells (scalarText (.string s)).toList (.string s) := by
  refine spells_of_step fun rest _ fuel _ => ?_
  have htext : (quote s).toList ++ rest =
      '"' :: (s.toList.flatMap escapeChar ++ '"' :: rest) := by
    simp [toList_quote]
  rw [scalarText, htext, readValue?]
  simp only [show ∀ left, skip ('"' :: left) = '"' :: left from fun _ => rfl, characters?_quote]
  rfl

end

/-! ### The text on one line -/

private theorem spells_compactItems {items : List Json} (hne : items ≠ [])
    (h : ∀ j ∈ items, Spells (compact j).toList j) :
    SpellsItems (compactItems items).toList items := by
  induction items with
  | nil => exact absurd rfl hne
  | cons j more ih =>
    have hj := h j List.mem_cons_self
    cases more with
    | nil => exact .single hj
    | cons next more =>
      have hmore := ih (List.cons_ne_nil _ _) fun k hk => h k (List.mem_cons_of_mem _ hk)
      have htext : (compactItems (j :: next :: more)).toList =
          (compact j).toList ++ ',' :: (compactItems (next :: more)).toList := by
        simp [compactItems]
      exact htext ▸ .cons hj hmore

private theorem spells_compactFields {fields : List (String × Json)} (hne : fields ≠ [])
    (h : ∀ f ∈ fields, Spells (compact f.2).toList f.2) :
    SpellsFields (compactFields fields).toList fields := by
  induction fields with
  | nil => exact absurd rfl hne
  | cons f more ih =>
    obtain ⟨name, j⟩ := f
    have hj := h _ List.mem_cons_self
    cases more with
    | nil =>
      have htext : (compactFields [(name, j)]).toList =
          [] ++ ((quote name).toList ++ ':' :: (compact j).toList) := by
        simp [compactFields]
      exact htext ▸ .single name hj white_nil
    | cons next more =>
      have hmore := ih (List.cons_ne_nil _ _) fun k hk => h k (List.mem_cons_of_mem _ hk)
      have htext : (compactFields ((name, j) :: next :: more)).toList =
          [] ++ ((quote name).toList ++ ':' ::
            ((compact j).toList ++ ',' :: (compactFields (next :: more)).toList)) := by
        simp [compactFields]
      exact htext ▸ .cons name hj hmore white_nil

theorem spells_compact {j : Json} (h : j.Writable) : Spells (compact j).toList j := by
  -- By induction on the value: its parts are spelled, hence the list of them, hence the value. An
  -- empty list is a case of its own, since reading it asks for no part.
  induction h with
  | null => exact spells_null
  | bool b => exact spells_bool b
  | number h => exact spells_number h
  | string s => exact spells_string s
  | @array items _ ih =>
    cases items with
    | nil => exact spells_array_nil
    | cons j more =>
      have htext : (compact (.array (j :: more))).toList =
          '[' :: ((compactItems (j :: more)).toList ++ ([] ++ [']'])) := by
        simp [compact]
      exact htext ▸ .array (spells_compactItems (List.cons_ne_nil _ _) ih) white_nil
  | @object fields _ ih =>
    cases fields with
    | nil => exact spells_object_nil
    | cons f more =>
      have htext : (compact (.object (f :: more))).toList =
          '\x7b' :: ((compactFields (f :: more)).toList ++ ([] ++ ['\x7d'])) := by
        simp [compact]
      exact htext ▸ .object (spells_compactFields (List.cons_ne_nil _ _) ih) white_nil

/-! ### The text on many lines -/

private theorem white_newLine (level : Nat) : White (newLine level).toList := by
  intro c hc
  simp only [newLine, String.toList_append, String.toList_ofList, List.mem_append,
    List.mem_replicate] at hc
  rcases hc with hbreak | ⟨-, rfl⟩
  · exact .inr (.inl (List.mem_singleton.1 hbreak))
  · exact .inl rfl

private theorem spells_indentedItems {level : Nat} {items : List Json} (hne : items ≠ [])
    (h : ∀ j ∈ items, Spells (indented level j).toList j) :
    SpellsItems (indentedItems level items).toList items := by
  induction items with
  | nil => exact absurd rfl hne
  | cons j more ih =>
    have hj := (h j List.mem_cons_self).of_white (white_newLine level)
    cases more with
    | nil =>
      rw [indentedItems, String.toList_append]
      exact .single hj
    | cons next more =>
      have hmore := ih (List.cons_ne_nil _ _) fun k hk => h k (List.mem_cons_of_mem _ hk)
      have htext : (indentedItems level (j :: next :: more)).toList =
          (newLine level).toList ++ (indented level j).toList ++
            ',' :: (indentedItems level (next :: more)).toList := by
        simp [indentedItems]
      exact htext ▸ .cons hj hmore

private theorem spells_indentedFields {level : Nat} {fields : List (String × Json)}
    (hne : fields ≠ []) (h : ∀ f ∈ fields, Spells (indented level f.2).toList f.2) :
    SpellsFields (indentedFields level fields).toList fields := by
  have hblank : White [' '] := fun c hc => .inl (List.mem_singleton.1 hc)
  induction fields with
  | nil => exact absurd rfl hne
  | cons f more ih =>
    obtain ⟨name, j⟩ := f
    have hj := (h _ List.mem_cons_self).of_white hblank
    cases more with
    | nil =>
      have htext : (indentedFields level [(name, j)]).toList = (newLine level).toList ++
          ((quote name).toList ++ ':' :: ([' '] ++ (indented level j).toList)) := by
        simp [indentedFields]
      exact htext ▸ .single name hj (white_newLine level)
    | cons next more =>
      have hmore := ih (List.cons_ne_nil _ _) fun k hk => h k (List.mem_cons_of_mem _ hk)
      have htext : (indentedFields level ((name, j) :: next :: more)).toList =
          (newLine level).toList ++ ((quote name).toList ++ ':' ::
            ([' '] ++ (indented level j).toList ++
              ',' :: (indentedFields level (next :: more)).toList)) := by
        simp [indentedFields]
      exact htext ▸ .cons name hj hmore (white_newLine level)

theorem spells_indented {j : Json} (h : j.Writable) (level : Nat) :
    Spells (indented level j).toList j := by
  induction h generalizing level with
  | null => exact spells_null
  | bool b => exact spells_bool b
  | number h => exact spells_number h
  | string s => exact spells_string s
  | @array items _ ih =>
    cases items with
    | nil =>
      rw [indented]
      exact spells_array_nil
    | cons j more =>
      have hitems := spells_indentedItems (List.cons_ne_nil _ _) fun k hk => ih k hk (level + 1)
      have htext : (indented level (.array (j :: more))).toList =
          '[' :: ((indentedItems (level + 1) (j :: more)).toList ++
            ((newLine level).toList ++ [']'])) := by
        simp [indented]
      exact htext ▸ .array hitems (white_newLine level)
  | @object fields _ ih =>
    cases fields with
    | nil =>
      rw [indented]
      exact spells_object_nil
    | cons f more =>
      have hfields := spells_indentedFields (List.cons_ne_nil _ _) fun k hk => ih k hk (level + 1)
      have htext : (indented level (.object (f :: more))).toList =
          '\x7b' :: ((indentedFields (level + 1) (f :: more)).toList ++
            ((newLine level).toList ++ ['\x7d'])) := by
        simp [indented]
      exact htext ▸ .object hfields (white_newLine level)

/-! ### Texts of their own -/

private theorem parse?_of_spells {text : String} {j : Json} (h : Spells text.toList j) :
    parse? text = some j := by
  have hlen : text.toList.length ≤ 2 * text.length + 2 := by
    rw [String.length_toList]
    omega
  have hread := h Number.ends_nil hlen
  rw [List.append_nil] at hread
  rw [parse?, hread]
  rfl

/-- The text of data on one line is read as the data. -/
theorem parse?_compact {j : Json} (h : j.Writable) : parse? j.compact = some j :=
  parse?_of_spells (spells_compact h)

/-- The text of a data file is read as the data. -/
theorem parse?_pretty {j : Json} (h : j.Writable) : parse? j.pretty = some j :=
  parse?_of_spells (spells_indented h 0)

end MotionTemplate.Json

import MotionTemplate.Json.Parser
import MotionTemplate.Json.Printer
import MotionTemplate.Proofs.Double.Shortest
import MotionTemplate.Proofs.Json.Sound

/-! Numbers written and read. The digits of a decimal may stand before the point, behind it, around
it or in front of an exponent; in each place they are read as the same decimal. -/
namespace MotionTemplate

namespace Number

/-- Nothing more of a number follows. -/
structure Ends (rest : List Char) : Prop where
  digit : ∀ c ∈ rest.head?, c.isDigit = false
  mark : ∀ c ∈ rest.head?, c ≠ '.' ∧ c ≠ 'e' ∧ c ≠ 'E'

theorem ends_nil : Ends [] := ⟨nofun, nofun⟩

theorem digitRun_append {digits rest : List Char} (h : ∀ c ∈ digits, c.isDigit)
    (hrest : ∀ c ∈ rest.head?, c.isDigit = false) (start : Nat) :
    digitRun start (digits ++ rest) = (Nat.ofDigitChars 10 digits start, digits.length, rest) := by
  induction digits generalizing start with
  | nil =>
    cases rest with
    | nil => rfl
    | cons c rest =>
      have hc : c.isDigit = false := hrest c rfl
      simp [digitRun, hc]
  | cons c digits ih =>
    obtain ⟨hc, h⟩ := List.forall_mem_cons.1 h
    rw [List.cons_append, digitRun, if_pos hc, ih h, Nat.ofDigitChars_cons, Nat.mul_comm start]
    rfl

/-- A number without its sign is written with digits, and starts with a zero only if that is all. -/
structure Leads (digits : List Char) : Prop where
  digit : ∀ c ∈ digits, c.isDigit
  head : digits = ['0'] ∨ ∃ c rest, digits = c :: rest ∧ c ≠ '0'

theorem leads_append {digits more : List Char} (h : Leads digits) (hne : digits ≠ ['0'])
    (hmore : ∀ c ∈ more, c.isDigit) : Leads (digits ++ more) := by
  obtain ⟨c, rest, rfl, hc⟩ := h.head.resolve_left hne
  refine ⟨?_, .inr ⟨c, rest ++ more, List.cons_append, hc⟩⟩
  rw [List.forall_mem_append]
  exact ⟨h.digit, hmore⟩

theorem leads_take {digits : List Char} {n : Nat} (h : Leads digits) (hn : 0 < n) :
    Leads (digits.take n) := by
  obtain ⟨k, rfl⟩ := Nat.exists_eq_succ_of_ne_zero hn.ne'
  refine ⟨fun c hc => h.digit c (List.mem_of_mem_take hc), ?_⟩
  rcases h.head with rfl | ⟨c, rest, rfl, hc⟩
  · exact .inl (by simp)
  · exact .inr ⟨c, rest.take k, rfl, hc⟩

theorem leads_toDigits {n : Nat} (hn : 0 < n) :
    Leads (Nat.toDigits 10 n) ∧ Nat.toDigits 10 n ≠ ['0'] := by
  have hdigit : ∀ c ∈ Nat.toDigits 10 n, c.isDigit := fun c hc =>
    Nat.isDigit_of_mem_toDigits (by decide) (by decide) hc
  have hhead : ∃ c rest, Nat.toDigits 10 n = c :: rest ∧ c ≠ '0' := by
    clear hdigit
    induction n using Nat.strong_induction_on with
    | _ n ih =>
      rcases Nat.lt_or_ge n 10 with hlt | hge
      · refine ⟨_, [], Nat.toDigits_of_lt_base hlt, ?_⟩
        have hall : ∀ k : Fin 10, 0 < k.val → Nat.digitChar k ≠ '0' := by decide
        exact hall ⟨n, hlt⟩ hn
      · obtain ⟨c, rest, heq, hc⟩ := ih (n / 10) (by omega) (by omega)
        exact ⟨c, rest ++ [(n % 10).digitChar],
          by rw [Nat.toDigits_of_base_le (by decide) hge, heq, List.cons_append], hc⟩
  refine ⟨⟨hdigit, .inr hhead⟩, ?_⟩
  obtain ⟨c, rest, heq, hc⟩ := hhead
  rw [heq]
  intro h
  exact hc (List.cons.inj h).1

end Number

namespace Json
open Number (Ends Leads digitRun_append Decimal)

variable {digits rest : List Char}

theorem wholePart?_append (h : Leads digits) (hrest : ∀ c ∈ rest.head?, c.isDigit = false) :
    wholePart? (digits ++ rest) = some (Nat.ofDigitChars 10 digits 0, rest) := by
  rcases h.head with rfl | ⟨c, more, rfl, hc⟩
  · cases rest with
    | nil => rfl
    | cons d rest =>
      have hd : d.isDigit = false := hrest d rfl
      simp [wholePart?, hd, Nat.ofDigitChars_cons]
  · rw [wholePart?]
    · rw [digitRun_append h.digit hrest]
      rfl
    · intro d rest' heq
      exact hc (List.cons.inj heq).1

theorem fractionPart?_point (h : ∀ c ∈ digits, c.isDigit) (hne : digits ≠ [])
    (hrest : ∀ c ∈ rest.head?, c.isDigit = false) (whole : Nat) :
    fractionPart? whole ('.' :: digits ++ rest) =
      some (Nat.ofDigitChars 10 digits whole, digits.length, rest) := by
  rw [List.cons_append, fractionPart?, digitRun_append h hrest]
  cases digits with
  | nil => exact absurd rfl hne
  | cons => rfl

theorem fractionPart?_none (h : ∀ c ∈ rest.head?, c ≠ '.') (whole : Nat) :
    fractionPart? whole rest = some (whole, 0, rest) := by
  rw [fractionPart?]
  intro more heq
  exact h '.' (by rw [heq]; rfl) rfl

theorem exponentPart?_none (h : ∀ c ∈ rest.head?, c ≠ 'e' ∧ c ≠ 'E') :
    exponentPart? rest = some (none, rest) := by
  cases rest with
  | nil => rfl
  | cons c rest =>
    have hc := h c rfl
    rw [exponentPart?, if_neg (by tauto)]

theorem exponentPart?_int (hrest : ∀ c ∈ rest.head?, c.isDigit = false) (z : Int) :
    exponentPart? ('e' :: ((if 0 ≤ z then "+" else "") ++ toString z).toList ++ rest) =
      some (some z, rest) := by
  have hrun (k : Nat) : Number.digitRun 0 (Nat.toDigits 10 k ++ rest) =
      (k, (Nat.toDigits 10 k).length, rest) := by
    rw [digitRun_append (fun c hc => Nat.isDigit_of_mem_toDigits (by decide) (by decide) hc) hrest,
      Nat.ofDigitChars_ten_toDigits]
  have hlen (k : Nat) : ∃ l, (Nat.toDigits 10 k).length = l + 1 :=
    Nat.exists_eq_succ_of_ne_zero Nat.length_toDigits_pos.ne'
  rw [String.toList_append, Int.toString_eq_repr, Int.repr_eq_if]
  split
  · next hz =>
    obtain ⟨l, hl⟩ := hlen z.toNat
    have htext : "+".toList ++ z.toNat.repr.toList = '+' :: Nat.toDigits 10 z.toNat := by
      rw [Nat.toList_repr]
      rfl
    rw [htext]
    simp only [List.cons_append, exponentPart?, Number.signed, hrun, hl, true_or, if_true]
    rw [if_neg Bool.false_ne_true, Int.toNat_of_nonneg hz]
  · next hz =>
    obtain ⟨l, hl⟩ := hlen (-z).toNat
    have htext : "".toList ++ ("-" ++ (-z).toNat.repr).toList =
        '-' :: Nat.toDigits 10 (-z).toNat := by
      rw [String.toList_append, Nat.toList_repr]
      rfl
    rw [htext]
    simp only [List.cons_append, exponentPart?, Number.signed, hrun, hl, true_or, if_true]
    rw [Int.toNat_of_nonneg (by omega), neg_neg]

/-- A number that is no integer is read by its parts. -/
theorem unsigned?_parts {text text₁ text₂ : Rest} {whole value places : Nat} {exponent : Option Int}
    (hwhole : wholePart? text = some (whole, text₁))
    (hfraction : fractionPart? whole text₁ = some (value, places, text₂))
    (hexponent : exponentPart? text₂ = some (exponent, rest))
    (hreal : ¬ (places = 0 ∧ exponent.isNone)) (negative : Bool) :
    unsigned? negative text =
      some (real (Number.ofDecimal negative value (exponent.getD 0 - places)), rest) := by
  simp only [unsigned?, hwhole, hfraction, hexponent, Option.bind_eq_bind, Option.bind_some]
  rw [if_neg hreal]

/-- An integer is read from its digits alone. -/
theorem unsigned?_whole (h : Leads digits) (hrest : Ends rest) (negative : Bool) :
    unsigned? negative (digits ++ rest) =
      some (integer negative (Nat.ofDigitChars 10 digits 0), rest) := by
  simp only [unsigned?, wholePart?_append h hrest.digit, Option.bind_eq_bind, Option.bind_some,
    fractionPart?_none fun c hc => (hrest.mark c hc).1,
    exponentPart?_none fun c hc => (hrest.mark c hc).2]
  rfl

/-- With either sign the text is read, up to what follows it, as a decimal of the given value. -/
def ReadsDecimal (text : List Char) (value : ℚ) : Prop :=
  ∀ ⦃rest : List Char⦄, Ends rest → ∀ negative : Bool, ∃ d : Decimal, d.value = value ∧
    unsigned? negative (text ++ rest) =
      some (real (Number.ofDecimal negative d.digits d.exponent), rest)

section

variable {front back : List Char}

/-- Digits around a point. -/
theorem readsDecimal_point (hfront : Leads front) (hback : ∀ c ∈ back, c.isDigit)
    (hne : back ≠ []) :
    ReadsDecimal (front ++ '.' :: back)
      (Decimal.value ⟨Nat.ofDigitChars 10 (front ++ back) 0, -back.length⟩) := by
  intro rest hrest negative
  refine ⟨⟨Nat.ofDigitChars 10 (front ++ back) 0, (none : Option Int).getD 0 - back.length⟩,
    by simp, ?_⟩
  have hlen : back.length ≠ 0 := fun h => hne (List.length_eq_zero_iff.1 h)
  rw [Nat.ofDigitChars_append, List.append_assoc]
  refine unsigned?_parts (wholePart?_append hfront ?_)
    (fractionPart?_point hback hne hrest.digit _)
    (exponentPart?_none fun c hc => (hrest.mark c hc).2) (fun h => hlen h.1) negative
  rintro c ⟨⟩
  rfl

/-- Digits in front of an exponent, with a point after the first one unless there are no others. -/
theorem readsDecimal_exponent (hfront : Leads front) (hback : ∀ c ∈ back, c.isDigit) (z : Int) :
    ReadsDecimal (front ++ (if back.isEmpty then [] else '.' :: back) ++
        'e' :: ((if 0 ≤ z then "+" else "") ++ toString z).toList)
      (Decimal.value ⟨Nat.ofDigitChars 10 (front ++ back) 0, z - back.length⟩) := by
  intro rest hrest negative
  refine ⟨⟨Nat.ofDigitChars 10 (front ++ back) 0, (some z).getD 0 - back.length⟩, by simp, ?_⟩
  have hexponent := exponentPart?_int hrest.digit z
  rw [Nat.ofDigitChars_append, List.append_assoc, List.append_assoc]
  cases back with
  | nil =>
    refine unsigned?_parts (wholePart?_append hfront ?_) (fractionPart?_none ?_ _) hexponent
      (fun h => Bool.false_ne_true h.2) negative
    · rintro c ⟨⟩
      rfl
    · rintro c ⟨⟩
      decide
  | cons c back =>
    refine unsigned?_parts (wholePart?_append hfront ?_)
      (fractionPart?_point hback (List.cons_ne_nil c back) ?_ _) hexponent
      (fun h => Bool.false_ne_true h.2) negative
    · rintro c ⟨⟩
      rfl
    · rintro c ⟨⟩
      rfl

end

private theorem isDigit_of_mem_zeros {k : Nat} {c : Char} (h : c ∈ List.replicate k '0') :
    c.isDigit := by
  obtain rfl := List.eq_of_mem_replicate h
  rfl

/-- Zeros behind the digits, and a fraction of one more. -/
private theorem readsDecimal_shifted (h : Leads digits) (hne : digits ≠ ['0']) (k : Nat) :
    ReadsDecimal (digits ++ List.replicate k '0' ++ ['.', '0'])
      (Decimal.value ⟨Nat.ofDigitChars 10 digits 0, k⟩) := by
  have hfront : Leads (digits ++ List.replicate k '0') :=
    Number.leads_append h hne fun _ => isDigit_of_mem_zeros
  have hread := readsDecimal_point hfront
    (List.forall_mem_singleton.2 (show '0'.isDigit from rfl)) (List.cons_ne_nil _ _)
  have hvalue : Decimal.value ⟨Nat.ofDigitChars 10 (digits ++ List.replicate k '0' ++ ['0']) 0,
      -(['0'].length : Int)⟩ = Decimal.value ⟨Nat.ofDigitChars 10 digits 0, k⟩ := by
    simp only [Nat.ofDigitChars_append, Nat.ofDigitChars_replicate_zero, Nat.ofDigitChars_cons,
      Nat.ofDigitChars_nil, Decimal.value, List.length_singleton]
    rw [zpow_natCast]
    push_cast
    norm_num
    ring
  exact hvalue ▸ hread

private theorem readsDecimal_inside (h : Leads digits) {k : Nat} (hk : 0 < k)
    (hlt : k < digits.length) :
    ReadsDecimal (digits.take k ++ '.' :: digits.drop k)
      (Decimal.value ⟨Nat.ofDigitChars 10 digits 0, k - digits.length⟩) := by
  have hdrop : (digits.drop k).length = digits.length - k := List.length_drop
  have hne : digits.drop k ≠ [] := List.ne_nil_of_length_pos (by omega)
  have hread := readsDecimal_point (Number.leads_take h hk)
    (fun c hc => h.digit c (List.mem_of_mem_drop hc)) hne
  rw [List.take_append_drop, hdrop] at hread
  rwa [show (k : Int) - digits.length = -((digits.length - k : Nat) : Int) by omega]

private theorem readsDecimal_below (h : Leads digits) (hne : digits ≠ []) (k : Nat) :
    ReadsDecimal ('0' :: '.' :: (List.replicate k '0' ++ digits))
      (Decimal.value ⟨Nat.ofDigitChars 10 digits 0, -k - digits.length⟩) := by
  have hread := readsDecimal_point
    (show Leads ['0'] from ⟨List.forall_mem_singleton.2 rfl, .inl rfl⟩)
    (List.forall_mem_append.2 ⟨fun _ => isDigit_of_mem_zeros, h.digit⟩)
    (List.append_ne_nil_of_right_ne_nil (List.replicate k '0') hne)
  have hzero : Nat.ofDigitChars 10 ['0'] 0 = 0 := by simp [Nat.ofDigitChars_cons]
  rw [Nat.ofDigitChars_append, Nat.ofDigitChars_append, hzero, Nat.ofDigitChars_replicate_zero,
    Nat.mul_zero, List.length_append, List.length_replicate] at hread
  rwa [show -(k : Int) - digits.length = -((k + digits.length : Nat) : Int) by omega]

private theorem toList_fraction (back : List Char) :
    (if back.isEmpty then "" else "." ++ String.ofList back).toList =
      if back.isEmpty then [] else '.' :: back := by
  split
  · rfl
  · simp only [String.toList_append, String.toList_ofList]
    rfl

/-- The text of a decimal is read as its value. -/
theorem readsDecimal_place {d : Decimal} (hd : 0 < d.digits) :
    ReadsDecimal (Number.Layout.data.place d).toList d.value := by
  obtain ⟨n, e⟩ := d
  obtain ⟨hleads, hne⟩ := Number.leads_toDigits hd
  have hvalue := Nat.ofDigitChars_ten_toDigits (n := n)
  have hlen : 0 < (Nat.toDigits 10 n).length := Nat.length_toDigits_pos
  simp only [Number.Layout.place, Nat.toString_eq_repr, Nat.toList_repr, Number.Layout.data,
    Number.zeros]
  generalize Nat.toDigits 10 n = digits at hleads hne hvalue hlen
  -- The layouts in turn: zeros behind the digits, a point inside, zeros in front, an exponent.
  by_cases hplain : -5 ≤ e + digits.length - 1 ∧ e + digits.length - 1 < 16
  · rw [if_pos hplain]
    by_cases he : 0 ≤ e
    · rw [if_pos he]
      have h := readsDecimal_shifted hleads hne e.toNat
      rw [Int.toNat_of_nonneg he, hvalue] at h
      simp only [String.toList_append, String.toList_ofList]
      exact h
    · rw [if_neg he]
      by_cases hlead : 0 ≤ e + digits.length - 1
      · rw [if_pos hlead]
        have h := readsDecimal_inside hleads (k := (e + digits.length - 1 + 1).toNat) (by omega)
          (by omega)
        rw [hvalue,
          show ((e + digits.length - 1 + 1).toNat : Int) - digits.length = e by omega] at h
        simp only [String.toList_append, String.toList_ofList, List.append_assoc]
        exact h
      · rw [if_neg hlead]
        have h := readsDecimal_below hleads (List.ne_nil_of_length_pos hlen)
          (-(e + digits.length - 1) - 1).toNat
        rw [hvalue, show -((-(e + digits.length - 1) - 1).toNat : Int) - digits.length = e by
          omega] at h
        simp only [String.toList_append, String.toList_ofList, List.append_assoc]
        exact h
  · rw [if_neg hplain]
    have h := readsDecimal_exponent (Number.leads_take hleads Nat.one_pos)
      (fun c hc => hleads.digit c (List.mem_of_mem_drop (i := 1) hc)) (e + digits.length - 1)
    have hexponent : e + digits.length - 1 - ((digits.drop 1).length : Int) = e := by
      rw [List.length_drop]
      omega
    rw [List.take_append_drop, hvalue, hexponent] at h
    simp only [String.toList_append, String.toList_ofList, toList_fraction] at h ⊢
    simp only [List.append_assoc] at h ⊢
    exact h

/-- The digits of a finite double are read as the double. -/
private theorem unsigned?_finite {m : Nat} {e : Int} (hm : 0 < m)
    (hfits : Number.Fits (.finite .positive m e hm)) (hrest : Ends rest) (negative : Bool) :
    unsigned? negative ((Number.Layout.data.place
        ((Number.binaryOf m e).shortest Number.Layout.data.tie)).toList ++ rest) =
      some (.number (.real (Number.ofForm
        (.finite (if negative then .negative else .positive) m e hm))), rest) := by
  have hcell := Number.cell_shortest hm Number.Layout.data.tie (e := e)
  obtain ⟨hd, -, -⟩ := hcell.decimal_bounds hfits
  obtain ⟨d, hvalue, hread⟩ := readsDecimal_place hd hrest negative
  have hform := Number.ofDecimal_eq hfits (hvalue ▸ hcell) negative
  have hfinite : (Number.ofDecimal negative d.digits d.exponent).isFinite := by
    change (Number.form _).isFinite
    rw [hform]
    rfl
  rw [hread, real, if_pos hfinite, ← hform, Number.ofForm_form]

private theorem unsigned?_zero (hrest : Ends rest) (negative : Bool) :
    unsigned? negative ('0' :: '.' :: '0' :: rest) =
      some (.number (.real (Number.ofForm (.zero (if negative then .negative else .positive)))),
        rest) := by
  have hzero : ∀ c ∈ ['0'], c.isDigit := List.forall_mem_singleton.2 rfl
  have hwhole : wholePart? ('0' :: '.' :: '0' :: rest) = some (0, '.' :: '0' :: rest) :=
    wholePart?_append ⟨hzero, .inl rfl⟩ fun c hc => by cases hc; rfl
  have hread := unsigned?_parts hwhole
    (fractionPart?_point hzero (List.cons_ne_nil _ _) hrest.digit _)
    (exponentPart?_none fun c hc => (hrest.mark c hc).2) (fun h => nomatch h.1) negative
  refine hread.trans ?_
  cases negative <;> rfl

/-- Numbers start with a digit. -/
private theorem exists_of_unsigned? {negative : Bool} {text : Rest} {r : Json × Rest}
    (h : unsigned? negative text = some r) : ∃ c more, text = c :: more ∧ c.isDigit := by
  simp only [unsigned?, Option.bind_eq_bind, Option.bind_eq_some_iff] at h
  obtain ⟨whole, hwhole, -⟩ := h
  unfold wholePart? at hwhole
  split at hwhole
  · exact ⟨_, _, rfl, rfl⟩
  · cases text with
    | nil => exact absurd hwhole.symm (Option.some_ne_none _)
    | cons c more =>
      refine ⟨c, more, rfl, ?_⟩
      by_contra hc
      rw [Number.digitRun, if_neg hc] at hwhole
      exact Option.some_ne_none _ hwhole.symm

theorem readValue?_minus (fuel : Nat) (text : Rest) :
    readValue? (fuel + 1) ('-' :: text) = unsigned? true text := by
  rw [readValue?]
  rfl

theorem readValue?_unsigned {text : Rest} {r : Json × Rest} (h : unsigned? false text = some r)
    (fuel : Nat) : readValue? (fuel + 1) text = some r := by
  obtain ⟨c, more, rfl, hc⟩ := exists_of_unsigned? h
  have hne {d : Char} (hd : d.isDigit = false) : c ≠ d := by
    rintro rfl
    rw [hd] at hc
    exact Bool.false_ne_true hc
  have hskip : skip (c :: more) = c :: more := by
    refine List.dropWhile_cons_of_neg ?_
    simp [hne (d := ' ') rfl, hne (d := '\n') rfl, hne (d := '\t') rfl, hne (d := '\r') rfl]
  rw [readValue?, hskip]
  split
  case h_8 => exact h
  all_goals
    next heq =>
      obtain ⟨rfl, -⟩ := List.cons.inj heq
      exact absurd hc (by decide)

private theorem readValue?_finite {x : Float} (hx : x.isFinite) (hrest : Ends rest) (fuel : Nat) :
    readValue? (fuel + 1) ((Number.Layout.data.render x).toList ++ rest) =
      some (.number (.real x), rest) := by
  have hform := Number.ofForm_form x
  have hfits := Number.fits_form x
  change (Number.form x).isFinite at hx
  cases hf : Number.form x with
  | notANumber | infinity =>
    rw [hf] at hx
    exact absurd hx Bool.false_ne_true
  | zero s =>
    rw [hf] at hform
    rw [Number.Layout.render, show x.toModel.unpack = _ from hf, ← hform]
    cases s with
    | positive => exact readValue?_unsigned (unsigned?_zero hrest false) fuel
    | negative => exact (readValue?_minus fuel _).trans (unsigned?_zero hrest true)
  | finite s m e hm =>
    rw [hf] at hform hfits
    rw [Number.Layout.render, show x.toModel.unpack = _ from hf, ← hform,
      String.toList_append]
    have hread := unsigned?_finite hm hfits hrest
    generalize Number.Layout.data.place _ = text at hread ⊢
    cases s with
    | positive => exact readValue?_unsigned (hread false) fuel
    | negative => exact (readValue?_minus fuel _).trans (hread true)

private theorem unsigned?_toDigits (n : Nat) (hrest : Ends rest) (negative : Bool) :
    unsigned? negative (Nat.toDigits 10 n ++ rest) = some (integer negative n, rest) := by
  have hleads : Leads (Nat.toDigits 10 n) := by
    rcases Nat.eq_zero_or_pos n with rfl | hn
    · exact ⟨List.forall_mem_singleton.2 rfl, .inl rfl⟩
    · exact (Number.leads_toDigits hn).1
  rw [unsigned?_whole hleads hrest, Nat.ofDigitChars_ten_toDigits]

private theorem readValue?_whole {n : Int} (h : (Numeral.whole n).Storable) (hrest : Ends rest)
    (fuel : Nat) :
    readValue? (fuel + 1) ((toString n).toList ++ rest) = some (.number (.whole n), rest) := by
  obtain ⟨hlow, hhigh⟩ := h
  rw [Int.toString_eq_repr, Int.repr_eq_if]
  split
  · next hn =>
    have hint : integer false n.toNat = .number (.whole n) := by
      rw [integer, if_neg Bool.false_ne_true, if_pos (by omega), Int.toNat_of_nonneg hn]
    rw [Nat.toList_repr]
    exact hint ▸ readValue?_unsigned (unsigned?_toDigits n.toNat hrest false) fuel
  · next hn =>
    have hint : integer true (-n).toNat = .number (.whole n) := by
      rw [integer, if_pos rfl, if_pos (by omega), Int.toNat_of_nonneg (by omega), neg_neg]
    rw [String.toList_append, Nat.toList_repr]
    exact hint ▸ (readValue?_minus fuel _).trans (unsigned?_toDigits (-n).toNat hrest true)

/-- What is written for a number is read as the number. -/
theorem readValue?_numeralText {n : Numeral} (h : n.Storable) (hrest : Ends rest) (fuel : Nat) :
    readValue? (fuel + 1) ((numeralText n).toList ++ rest) = some (.number n, rest) := by
  cases n with
  | whole n => exact readValue?_whole h hrest fuel
  | real x =>
    have hx : x.isFinite := h
    rw [numeralText, if_pos hx]
    exact readValue?_finite hx hrest fuel

end Json

end MotionTemplate

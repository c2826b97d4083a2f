/-! Absolute addresses on the web: which texts are one, and the path that is asked of the host. -/
namespace MotionTemplate.Web

/-- What ends the part of an address that names the host. -/
private def endsHost (c : Char) : Bool := c = '/' || c = '\\' || c = '?' || c = '#'

private def isSlash (c : Char) : Bool := c = '/' || c = '\\'

/-- Controls and blanks around an address and line breaks within it are ignored. -/
private def cleaned (text : String) : List Char :=
  let isEdge (c : Char) : Bool := c.toNat ≤ 0x20
  let inner := ((text.toList.dropWhile isEdge).reverse.dropWhile isEdge).reverse
  inner.filter fun c => !(c = '\t' || c = '\n' || c = '\r')

/-- The scheme in lower case and what follows its colon. -/
private def scheme? (cs : List Char) : Option (String × List Char) :=
  let isPart (c : Char) : Bool := c.isAlphanum || c = '+' || c = '-' || c = '.'
  match cs.head?, cs.dropWhile isPart with
  | some first, ':' :: rest =>
    if first.isAlpha then some (String.ofList ((cs.takeWhile isPart).map Char.toLower), rest)
    else none
  | _, _ => none

private def digitValue? (radix : Nat) (c : Char) : Option Nat :=
  let value :=
    if c.isDigit then some (c.toNat - '0'.toNat)
    else if 'a' ≤ c ∧ c ≤ 'f' then some (c.toNat - 'a'.toNat + 10)
    else if 'A' ≤ c ∧ c ≤ 'F' then some (c.toNat - 'A'.toNat + 10)
    else none
  value.filter (· < radix)

private def number? (radix : Nat) (cs : List Char) : Option Nat :=
  cs.foldlM (fun n c => (digitValue? radix c).map (n * radix + ·)) 0

/-- A number below 65536, or nothing at all. -/
private def isPort (cs : List Char) : Bool :=
  cs.isEmpty || (number? 10 cs).any (· < 65536)

/-- A part of a numeric host: hexadecimal after `0x`, octal after `0`, and decimal otherwise. -/
private def hostNumber? : List Char → Option Nat
  | [] => none
  | '0' :: 'x' :: rest | '0' :: 'X' :: rest => number? 16 rest
  | '0' :: c :: rest => number? 8 (c :: rest)
  | cs => number? 10 cs

/-- The labels of a host; a dot at the end adds none. -/
private def labels (host : List Char) : List (List Char) :=
  let parts := host.splitOn '.'
  if 1 < parts.length ∧ parts.getLast? = some [] then parts.dropLast else parts

/-- Hosts whose last label is a number are numeric as a whole. -/
private def looksNumeric (host : List Char) : Bool :=
  match (labels host).getLast? with
  | none | some [] => false
  | some label => label.all Char.isDigit || (hostNumber? label).isSome

private def isNumericHost (host : List Char) : Bool :=
  match (labels host).mapM hostNumber? with
  | none => false
  | some numbers =>
    numbers.length ≤ 4 && numbers.dropLast.all (· < 256)
      && numbers.getLast?.all (· < 1 <<< (8 * (5 - numbers.length)))

/-- One of four numbers below 256 that are separated by dots. -/
private def isByteText (cs : List Char) : Bool :=
  (cs == ['0'] || cs.head?.any (· ≠ '0')) && cs.length ≤ 3 && (number? 10 cs).any (· < 256)

/-- How many of the eight groups the parts between colons make up. Only the very last part may be
four bytes, which are two groups. -/
private def groupCount? (isLast : Bool) : List (List Char) → Option Nat
  | [] => some 0
  | [part] =>
    if isLast ∧ part.contains '.' then
      let bytes := part.splitOn '.'
      if bytes.length = 4 ∧ bytes.all isByteText then some 2 else none
    else if part ≠ [] ∧ part.length ≤ 4 ∧ (number? 16 part).isSome then some 1
    else none
  | part :: rest =>
    if part ≠ [] ∧ part.length ≤ 4 ∧ (number? 16 part).isSome then
      (groupCount? isLast rest).map (· + 1)
    else none

/-- Splits at the first two colons in a row. -/
private def gap? : List Char → Option (List Char × List Char)
  | ':' :: ':' :: rest => some ([], rest)
  | c :: rest => (gap? rest).map fun r => (c :: r.1, r.2)
  | [] => none

private def groups (cs : List Char) : List (List Char) := if cs = [] then [] else cs.splitOn ':'

/-- Eight groups of hexadecimal digits, of which two colons in a row may stand for some. -/
private def isBracketed (cs : List Char) : Bool :=
  match gap? cs with
  | none => groupCount? true (groups cs) == some 8
  | some (front, back) =>
    match groupCount? false (groups front), groupCount? true (groups back) with
    | some a, some b => a + b ≤ 7
    | _, _ => false

/-- Undoes the escapes of single characters. -/
private def unescaped : List Char → List Char
  | '%' :: a :: b :: rest =>
    match digitValue? 16 a, digitValue? 16 b with
    | some a, some b => Char.ofNat (a * 16 + b) :: unescaped rest
    | _, _ => '%' :: unescaped (a :: b :: rest)
  | c :: rest => c :: unescaped rest
  | [] => []

private def isHostChar (c : Char) : Bool :=
  0x20 < c.toNat && c.toNat ≠ 0x7F && c.toNat ≠ 0xFFFD
    && !"#/:<>?@[\\]^|%".toList.contains c

private def isHost (host : List Char) : Bool :=
  match host with
  | [] => false
  | '[' :: rest => rest.getLast? == some ']' && isBracketed rest.dropLast
  | host =>
    let host := unescaped host
    !host.isEmpty && host.all isHostChar && (!looksNumeric host || isNumericHost host)

/-- Splits a host from its port; colons between brackets belong to the host. -/
private def hostAndPort (inBrackets : Bool) : List Char → List Char × Option (List Char)
  | [] => ([], none)
  | c :: rest =>
    if c = ':' ∧ !inBrackets then ([], some rest)
    else
      let inBrackets := if c = '[' then true else if c = ']' then false else inBrackets
      let (host, port) := hostAndPort inBrackets rest
      (c :: host, port)

/-- Drops the credentials in front of a host. -/
private def withoutCredentials (cs : List Char) : List Char :=
  (cs.reverse.takeWhile (· ≠ '@')).reverse

private def isAuthority (cs : List Char) : Bool :=
  let (host, port) := hostAndPort false (withoutCredentials cs)
  isHost host && port.all isPort

private def upperHex (n : Nat) : Char := "0123456789ABCDEF".toList.getD n '0'

/-- Characters that a path shows as escapes of their bytes. -/
private def isEscaped (c : Char) : Bool :=
  c.toNat ≤ 0x20 || 0x7E < c.toNat || "\"#<>?`\x7b\x7d".toList.contains c

private def escapeChar (c : Char) : List Char :=
  if isEscaped c then
    (String.singleton c).toUTF8.toList.flatMap fun b =>
      ['%', upperHex (b.toNat / 16), upperHex (b.toNat % 16)]
  else [c]

/-- A segment with the escapes of a dot undone. -/
private def dots (segment : List Char) : String :=
  (((String.ofList segment).replace "%2e" ".").replace "%2E" ".")

/-- Puts a segment on those before it. A dot stays where it is, and two go up. -/
private def addSegment (path : List (List Char)) (segment : List Char) (isLast : Bool) :
    List (List Char) :=
  let ended (path : List (List Char)) : List (List Char) := if isLast then path ++ [[]] else path
  if dots segment = "." then ended path
  else if dots segment = ".." then ended path.dropLast
  else path ++ [segment.flatMap escapeChar]

private def addSegments (path : List (List Char)) : List (List Char) → List (List Char)
  | [] => path
  | segment :: rest => addSegments (addSegment path segment rest.isEmpty) rest

private def splitSlashes (cs : List Char) : List (List Char) :=
  (cs.map fun c => if isSlash c then '/' else c).splitOn '/'

private def pathText (cs : List Char) : String :=
  let segments := addSegments [] (splitSlashes (cs.drop 1))
  "/" ++ String.ofList ((segments.intersperse ['/']).flatten)

/-- The path of an absolute address that a request can be sent to. -/
def requestPath? (address : String) : Option String :=
  match scheme? (cleaned address) with
  | none => none
  | some (scheme, rest) =>
    if scheme ≠ "http" ∧ scheme ≠ "https" then none
    else
      let rest := rest.dropWhile isSlash
      if isAuthority (rest.takeWhile (!endsHost ·)) then
        some (pathText ((rest.dropWhile (!endsHost ·)).takeWhile fun c => c ≠ '?' ∧ c ≠ '#'))
      else none

/-! An address may be cut off at a slash behind its host: what follows changes the path and not
whether there is one. -/

private theorem dropWhile_append_cons {p : Char → Bool} {c : Char} (h : p c = false)
    (xs ys : List Char) : (xs ++ c :: ys).dropWhile p = xs.dropWhile p ++ c :: ys := by
  induction xs with
  | nil => simp [h]
  | cons x xs ih => cases hx : p x <;> simp [hx, ih]

private theorem takeWhile_append_cons {p : Char → Bool} {c : Char} (h : p c = false)
    (xs ys : List Char) : (xs ++ c :: ys).takeWhile p = xs.takeWhile p := by
  induction xs with
  | nil => simp [h]
  | cons x xs ih => cases hx : p x <;> simp [hx, ih]

private theorem cleaned_append {c : Char} (hc : 0x20 < c.toNat) (front rest : List Char) :
    ∃ front' rest', cleaned (String.ofList (front ++ [c])) = front' ++ [c] ∧
      cleaned (String.ofList (front ++ c :: '/' :: rest)) = front' ++ c :: '/' :: rest' := by
  let isEdge (c : Char) : Bool := c.toNat ≤ 0x20
  let isKept (c : Char) : Bool := !(c = '\t' || c = '\n' || c = '\r')
  have hedge : isEdge c = false := decide_eq_false (by omega)
  have hkept : isKept c = true := by
    simp only [isKept, Bool.not_eq_true', Bool.or_eq_false_iff, decide_eq_false_iff_not]
    refine ⟨⟨?_, ?_⟩, ?_⟩ <;> rintro rfl <;> exact absurd hc (by decide)
  have hslash : isEdge '/' = false ∧ isKept '/' = true := by decide
  refine ⟨(front.dropWhile isEdge).filter isKept,
    ((rest.reverse.dropWhile isEdge).reverse).filter isKept, ?_, ?_⟩
  · change ((((String.ofList (front ++ [c])).toList.dropWhile isEdge).reverse.dropWhile
      isEdge).reverse).filter isKept = _
    rw [String.toList_ofList, dropWhile_append_cons hedge, List.reverse_append]
    simp [hedge, hkept]
  · change ((((String.ofList (front ++ c :: '/' :: rest)).toList.dropWhile isEdge).reverse.dropWhile
      isEdge).reverse).filter isKept = _
    rw [String.toList_ofList, dropWhile_append_cons hedge, List.reverse_append,
      List.reverse_cons, List.reverse_cons, List.append_assoc, List.append_assoc,
      List.singleton_append, dropWhile_append_cons hslash.1]
    simp [hkept, hslash.2]

private theorem scheme?_append {front : List Char} (hfront : front ≠ []) (rest : List Char) :
    scheme? (front ++ '/' :: rest) =
      (scheme? front).map fun s => (s.1, s.2 ++ '/' :: rest) := by
  obtain ⟨first, tail, rfl⟩ := List.exists_cons_of_ne_nil hfront
  let isPart (c : Char) : Bool := c.isAlphanum || c = '+' || c = '-' || c = '.'
  have hslash : isPart '/' = false := by decide
  have hdrop := dropWhile_append_cons hslash (first :: tail) rest
  have htake := takeWhile_append_cons hslash (first :: tail) rest
  simp only [scheme?, List.head?_append, List.head?_cons, Option.some_or]
  rw [hdrop, htake]
  cases (first :: tail).dropWhile isPart with
  | nil => rfl
  | cons d rest' =>
    by_cases hd : d = ':'
    · subst hd
      cases hfirst : first.isAlpha <;> simp [hfirst, isPart]
    · simp [hd]

/-- What follows a scheme ends as the whole text does. -/
private theorem mem_of_scheme? {front : List Char} {c : Char} (hc : c ≠ ':')
    {s : String × List Char} (h : scheme? (front ++ [c]) = some s) : c ∈ s.2 := by
  rw [scheme?] at h
  split at h
  · next first rest hfirst hrest =>
    split at h
    · obtain rfl := Option.some.inj h
      obtain ⟨before, hbefore⟩ : ':' :: rest <:+ front ++ [c] := hrest ▸ List.dropWhile_suffix _
      have hlast : (before ++ ':' :: rest).getLast? = some c := by
        rw [hbefore, List.getLast?_append, List.getLast?_singleton, Option.some_or]
      rw [List.getLast?_append, List.getLast?_eq_some_getLast (List.cons_ne_nil _ _),
        Option.some_or, Option.some_inj] at hlast
      cases rest with
      | nil => exact absurd hlast.symm hc
      | cons d rest =>
        rw [List.getLast_cons (List.cons_ne_nil _ _)] at hlast
        exact hlast ▸ List.getLast_mem _
    · exact nomatch h
  · exact nomatch h

private theorem authority_append {rest : List Char} {c : Char} (hmem : c ∈ rest)
    (hc : isSlash c = false) (path : List Char) :
    ((rest ++ '/' :: path).dropWhile isSlash).takeWhile (!endsHost ·) =
      (rest.dropWhile isSlash).takeWhile (!endsHost ·) := by
  have hends : (!endsHost '/') = false := by decide
  induction rest with
  | nil => exact nomatch hmem
  | cons d rest ih =>
    cases hd : isSlash d with
    | false =>
      rw [List.cons_append, List.dropWhile_cons_of_neg (by simp [hd]),
        List.dropWhile_cons_of_neg (by simp [hd]), ← List.cons_append,
        takeWhile_append_cons hends]
    | true =>
      have hne : c ≠ d := by
        rintro rfl
        rw [hd] at hc
        cases hc
      rw [List.cons_append, List.dropWhile_cons_of_pos hd, List.dropWhile_cons_of_pos hd]
      exact ih ((List.mem_cons.1 hmem).resolve_left hne)

/-- A text with a slash behind a letter is an address if what stands in front of that slash is. -/
theorem isSome_requestPath?_append {c : Char} (hc : c.isAlpha = true) (front rest : String) :
    (requestPath? (front ++ String.singleton c ++ "/" ++ rest)).isSome =
      (requestPath? (front ++ String.singleton c)).isSome := by
  have hedge : 0x20 < c.toNat := by
    obtain hupper | hlower := Bool.or_eq_true_iff.1 hc
    · have hle : 65 ≤ c.toNat := (of_decide_eq_true hupper).1
      omega
    · have hle : 97 ≤ c.toNat := of_decide_eq_true (Bool.and_eq_true_iff.1 hlower).1
      omega
  have hslash : isSlash c = false := by
    rw [isSlash, Bool.or_eq_false_iff, decide_eq_false_iff_not, decide_eq_false_iff_not]
    constructor <;> rintro rfl <;> exact absurd hc (by decide)
  have hcolon : c ≠ ':' := by
    rintro rfl
    exact absurd hc (by decide)
  obtain ⟨front', rest', hcut, hwhole⟩ := cleaned_append hedge front.toList rest.toList
  have hfront : front' ++ [c] ≠ [] := by simp
  have hscheme := scheme?_append hfront rest'
  rw [List.append_assoc, List.singleton_append] at hscheme
  have hcut' : front ++ String.singleton c = String.ofList (front.toList ++ [c]) := by
    simp
  have hwhole' : front ++ String.singleton c ++ "/" ++ rest =
      String.ofList (front.toList ++ c :: '/' :: rest.toList) := by
    simp [← String.toList_inj]
  rw [hwhole', hcut', requestPath?, requestPath?, hcut, hwhole, hscheme]
  cases hs : scheme? (front' ++ [c]) with
  | none => rfl
  | some s =>
    have hmem : c ∈ s.2 := mem_of_scheme? hcolon hs
    simp only [Option.map_some, authority_append hmem hslash]
    split
    · rfl
    · split <;> rfl

end MotionTemplate.Web

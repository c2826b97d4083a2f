import Mathlib.Data.List.Forall2
import MotionTemplate.Json.Decoder
import MotionTemplate.Proofs.Double.Decimal
import MotionTemplate.Proofs.Json.Sound
import MotionTemplate.Proofs.KeyMap

/-! Decoders that take back what is written for their values. A value that was decoded from a text
is written as data that decodes to the same value at the same depth. -/
namespace MotionTemplate

namespace Json

/-- Sound data with nothing in it that cannot be read. -/
inductive Writable : Json → Prop
  | null : Writable .null
  | bool (b : Bool) : Writable (.bool b)
  | number {n : Numeral} (h : n.Storable) : Writable (.number n)
  | string (s : String) : Writable (.string s)
  | array {items : List Json} (h : ∀ j ∈ items, Writable j) : Writable (.array items)
  | object {fields : List (String × Json)} (h : ∀ f ∈ fields, Writable f.2) :
      Writable (.object fields)

end Json

variable {α β : Type}

/-- In so much room, the data written for a value can be stored and is decoded to the value. -/
structure Written (d : Decoder α) (write : α → Json) (room : Nat) (a : α) : Prop where
  decoded : d room (write a) = some a
  writable : (write a).Writable

/-- Given the least room, a decoder takes back what is written for every value it gives. -/
def Rereads (d : Decoder α) (write : α → Json) (least : Nat) : Prop :=
  ∀ ⦃room : Nat⦄ ⦃j : Json⦄ ⦃a : α⦄, least ≤ room → j.Sound → d room j = some a →
    Written d write room a

namespace Decoder

theorem mapM_eq_some_iff {f : α → Option β} {items : List α} {out : List β} :
    items.mapM f = some out ↔ List.Forall₂ (fun a b => f a = some b) items out := by
  induction items generalizing out with
  | nil => simp [eq_comm]
  | cons a rest ih =>
    rw [List.mapM_cons, List.forall₂_cons_left_iff]
    simp only [Option.bind_eq_bind, Option.bind_eq_some_iff, ih, Option.pure_def, Option.some_inj]
    constructor
    · rintro ⟨b, hb, others, hothers, rfl⟩
      exact ⟨b, others, hb, hothers, rfl⟩
    · rintro ⟨b, others, hb, hothers, rfl⟩
      exact ⟨b, hb, others, hothers, rfl⟩

theorem exists_of_forall₂ {R : α → β → Prop} {items : List α} {out : List β} {b : β}
    (h : List.Forall₂ R items out) (hb : b ∈ out) : ∃ a ∈ items, R a b := by
  induction h with
  | nil => exact absurd hb List.not_mem_nil
  | cons hab _ ih =>
    rcases List.mem_cons.1 hb with rfl | hb
    · exact ⟨_, List.mem_cons_self, hab⟩
    · obtain ⟨a, ha, hR⟩ := ih hb
      exact ⟨a, List.mem_cons_of_mem _ ha, hR⟩

theorem enter?_of_le {room : Nat} (h : 2 ≤ room) : enter? room = some (room - 1) :=
  if_neg (by omega)

theorem enter?_eq_some_iff {room inner : Nat} :
    enter? room = some inner ↔ 2 ≤ room ∧ inner = room - 1 := by
  rw [enter?]
  split
  · exact iff_of_false nofun (by omega)
  · rw [Option.some_inj, eq_comm]
    exact (and_iff_right (by omega)).symm

theorem rereads_string : Rereads string .string 0 := by
  intro room j s _ _ h
  cases j with
  | string s' =>
    obtain rfl := Option.some.inj h
    exact ⟨rfl, .string _⟩
  | _ => exact nomatch h

theorem rereads_bool : Rereads bool .bool 0 := by
  intro room j b _ _ h
  cases j with
  | bool b' =>
    obtain rfl := Option.some.inj h
    exact ⟨rfl, .bool _⟩
  | _ => exact nomatch h

/-- A finite double is written as a number. -/
theorem written_float {x : Float} (h : x.isFinite) (room : Nat) :
    Written float .ofFloat room x := by
  have hx : Json.ofFloat x = .number (.real x) := if_pos h
  exact ⟨by rw [hx]; rfl, hx ▸ .number h⟩

private theorem isFinite_of_storable {n : Numeral} (h : n.Storable) : n.toFloat.isFinite := by
  cases n with
  | real x => exact h
  | whole n =>
    obtain ⟨hlow, hhigh⟩ := h
    cases n with
    | ofNat k =>
      rw [Int.ofNat_eq_natCast] at hhigh
      exact Number.isFinite_ofNat (by omega)
    | negSucc k => exact Number.isFinite_neg (Number.isFinite_ofNat (by omega))

theorem isFinite_of_float {room : Nat} {j : Json} {x : Float} (hj : j.Sound)
    (h : float room j = some x) : x.isFinite := by
  cases hj with
  | @number n hn =>
    obtain rfl := Option.some.inj h
    exact isFinite_of_storable hn
  | _ => exact nomatch h

theorem rereads_float : Rereads float .ofFloat 0 :=
  fun room _ _ _ hj h => written_float (isFinite_of_float hj h) room

private theorem mem_of_intIn {low high n : Int} {room : Nat} {j : Json}
    (h : intIn low high room j = some n) : low ≤ n ∧ n ≤ high := by
  unfold intIn at h
  split at h
  · split at h
    · next hm =>
      obtain rfl := Option.some.inj h
      exact hm
    · exact nomatch h
  · exact nomatch h

theorem rereads_intBits : Rereads (intBits 64) .ofInt 0 := by
  intro room j n _ _ h
  have hn := mem_of_intIn h
  exact ⟨if_pos hn, .number ⟨by omega, by omega⟩⟩

theorem written_natBits {bits n : Nat} (hbits : (1 <<< bits : Nat) ≤ 18446744073709551616)
    (h : n < 1 <<< bits) (room : Nat) : Written (natBits bits) .ofNat room n := by
  have hn : (0 : Int) ≤ n ∧ (n : Int) ≤ (1 <<< bits : Nat) - 1 := by omega
  refine ⟨?_, .number ⟨by omega, by omega⟩⟩
  simp only [natBits, map, Json.ofNat, intIn, if_pos hn, Option.map_some, Int.toNat_natCast]

theorem rereads_natBits {bits : Nat} (hbits : (1 <<< bits : Nat) ≤ 18446744073709551616) :
    Rereads (natBits bits) .ofNat 0 := by
  intro room j n _ _ h
  obtain ⟨m, hm, rfl⟩ := Option.map_eq_some_iff.1 h
  have hn := mem_of_intIn hm
  exact written_natBits hbits (by omega) room

theorem rereads_oneOf [DecidableEq α] {names : List (String × α)}
    (hnames : ∀ e ∈ names, KeyMap.lookup (nameOf names e.2) names = some e.2) :
    Rereads (oneOf names) (fun a => .string (nameOf names a)) 0 := by
  intro room j a _ _ h
  have hmem : ∃ name, (name, a) ∈ names := by
    unfold oneOf at h
    split at h
    · exact ⟨_, KeyMap.mem_of_lookup h⟩
    · obtain ⟨_, -, h⟩ := Option.bind_eq_some_iff.1 h
      exact ⟨_, KeyMap.mem_of_lookup h⟩
    · exact nomatch h
  obtain ⟨name, hmem⟩ := hmem
  exact ⟨hnames _ hmem, .string _⟩

section

variable {d : Decoder α} {write : α → Json} {least : Nat}

theorem written_list {room : Nat} {items : List α} (hroom : 2 ≤ room)
    (h : ∀ a ∈ items, Written d write (room - 1) a) :
    Written (list d) (Json.ofList write) room items := by
  constructor
  · have hall : (items.map write).mapM (d (room - 1)) = some items := by
      rw [mapM_eq_some_iff, List.forall₂_map_left_iff, List.forall₂_same]
      exact fun a ha => (h a ha).decoded
    simp only [list, Json.ofList, enter?_of_le hroom, Option.bind_some, hall]
  · refine .array fun j hj => ?_
    obtain ⟨a, ha, rfl⟩ := List.mem_map.1 hj
    exact (h a ha).writable

theorem written_nil {room : Nat} (hroom : 2 ≤ room) :
    Written (list d) (Json.ofList write) room [] :=
  written_list hroom fun _ ha => absurd ha List.not_mem_nil

theorem rereads_list (hd : Rereads d write least) :
    Rereads (list d) (Json.ofList write) (least + 2) := by
  intro room j items hroom hj h
  cases hj with
  | @array data hdata =>
    simp only [list, enter?_of_le (show 2 ≤ room by omega), Option.bind_some,
      mapM_eq_some_iff] at h
    refine written_list (by omega) fun a ha => ?_
    obtain ⟨k, hk, hka⟩ := exists_of_forall₂ h ha
    exact hd (by omega) (hdata k hk) hka
  | _ => exact nomatch h

theorem written_keyMap {room : Nat} {m : KeyMap α} (hroom : 2 ≤ room)
    (h : ∀ e ∈ m.entries, Written d write (room - 1) e.2) :
    Written (keyMap d) (Json.ofMap write) room m := by
  constructor
  · have hall : (m.entries.map fun e => (e.1, write e.2)).mapM
        (fun f => (d (room - 1) f.2).map fun v => (f.1, v)) = some m.entries := by
      rw [mapM_eq_some_iff, List.forall₂_map_left_iff, List.forall₂_same]
      intro e he
      rw [(h e he).decoded, Option.map_some]
    simp only [keyMap, Json.ofMap, enter?_of_le hroom, Option.bind_some, hall, Option.map_some,
      KeyMap.ofList_entries]
  · refine .object fun f hf => ?_
    obtain ⟨e, he, rfl⟩ := List.mem_map.1 hf
    exact (h e he).writable

theorem written_empty {room : Nat} (hroom : 2 ≤ room) :
    Written (keyMap d) (Json.ofMap write) room ∅ :=
  written_keyMap hroom fun _ he => absurd he List.not_mem_nil

theorem rereads_keyMap (hd : Rereads d write least) :
    Rereads (keyMap d) (Json.ofMap write) (least + 2) := by
  intro room j m hroom hj h
  cases hj with
  | @object fields hfields =>
    simp only [keyMap, enter?_of_le (show 2 ≤ room by omega), Option.bind_some,
      Option.map_eq_some_iff, mapM_eq_some_iff] at h
    obtain ⟨entries, hentries, rfl⟩ := h
    refine written_keyMap (by omega) fun e he => ?_
    obtain ⟨f, hf, hfe⟩ := exists_of_forall₂ hentries (KeyMap.mem_of_mem_ofList he)
    obtain ⟨v, hv, rfl⟩ := hfe
    exact hd (by omega) (hfields f hf) hv
  | _ => exact nomatch h

/-- Null stands for no value, so a value must not be written as null. -/
theorem written_option {room : Nat} {v : Option α}
    (h : ∀ a ∈ v, Written d write room a ∧ write a ≠ .null) :
    Written (option d) (Json.ofOption write) room v := by
  cases v with
  | none => exact ⟨rfl, .null⟩
  | some a =>
    obtain ⟨ha, hnull⟩ := h a rfl
    refine ⟨?_, ha.writable⟩
    rw [Json.ofOption, option, ha.decoded, Option.map_some]
    exact fun hn => absurd hn hnull

theorem rereads_option (hd : Rereads d write least)
    (hnull : ∀ ⦃room j a⦄, j ≠ .null → d room j = some a → write a ≠ .null) :
    Rereads (option d) (Json.ofOption write) least := by
  intro room j v hroom hj h
  unfold option at h
  split at h
  · obtain rfl := Option.some.inj h
    exact written_option nofun
  · next hne =>
    obtain ⟨a, ha, rfl⟩ := Option.map_eq_some_iff.1 h
    refine written_option fun b hb => ?_
    obtain rfl := Option.some.inj hb
    exact ⟨hd hroom hj ha, hnull hne ha⟩

end

end Decoder

end MotionTemplate

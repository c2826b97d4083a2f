import Mathlib.Data.List.Nodup
import Mathlib.Data.List.Perm.Basic
import MotionTemplate.KeyMap

/-! Maps against their entries. Looking a name up is membership among the entries, and a map is
rebuilt from the list of its entries, in whatever order they are listed. -/
namespace MotionTemplate.KeyMap

variable {α β : Type} {key : String} {v : α}

theorem mem_of_lookup {entries : List (String × α)} (h : lookup key entries = some v) :
    (key, v) ∈ entries := by
  induction entries with
  | nil => exact nomatch h
  | cons e rest ih =>
    obtain ⟨k, w⟩ := e
    rw [lookup] at h
    split at h
    · next hk =>
      obtain rfl := Option.some.inj h
      exact hk ▸ List.mem_cons_self
    · exact List.mem_cons_of_mem _ (ih h)

theorem names_nodup (m : KeyMap α) : (m.entries.map (·.1)).Nodup := by
  rw [List.Nodup, List.pairwise_map]
  refine m.ascending.imp fun {a b} (hlt : a.1 < b.1) (heq : a.1 = b.1) => ?_
  exact String.lt_irrefl b.1 (heq ▸ hlt)

private theorem lookup_eq_some_iff {entries : List (String × α)}
    (h : (entries.map (·.1)).Nodup) : lookup key entries = some v ↔ (key, v) ∈ entries := by
  refine ⟨mem_of_lookup, fun hmem => ?_⟩
  induction entries with
  | nil => exact absurd hmem List.not_mem_nil
  | cons e rest ih =>
    obtain ⟨k, w⟩ := e
    obtain ⟨hk, hrest⟩ := List.nodup_cons.1 h
    rw [lookup]
    rcases List.mem_cons.1 hmem with heq | hmem
    · obtain ⟨rfl, rfl⟩ := Prod.mk.inj heq
      rw [if_pos rfl]
    · have hne : k ≠ key := by
        rintro rfl
        exact hk (List.mem_map.2 ⟨_, hmem, rfl⟩)
      rw [if_neg hne]
      exact ih hrest hmem

theorem mem_of_find? {m : KeyMap α} (h : m.find? key = some v) : (key, v) ∈ m.entries :=
  mem_of_lookup h

theorem find?_of_mem {m : KeyMap α} (h : (key, v) ∈ m.entries) : m.find? key = some v :=
  (lookup_eq_some_iff m.names_nodup).2 h

theorem find?_eq_some_iff {m : KeyMap α} : m.find? key = some v ↔ (key, v) ∈ m.entries :=
  ⟨mem_of_find?, find?_of_mem⟩

theorem eq_empty_of_isEmpty {m : KeyMap α} (h : m.isEmpty) : m = ∅ :=
  ext (List.isEmpty_iff.1 h)

theorem contains_iff {m : KeyMap α} : m.contains key ↔ ∃ v, (key, v) ∈ m.entries := by
  rw [contains, Option.isSome_iff_exists]
  exact exists_congr fun _ => find?_eq_some_iff

/-- No name stands before the empty one. -/
theorem head?_of_mem_empty {m : KeyMap α} (h : ("", v) ∈ m.entries) :
    m.entries.head? = some ("", v) := by
  obtain ⟨entries, hs⟩ := m
  cases entries with
  | nil => exact absurd h List.not_mem_nil
  | cons e rest =>
    rcases List.mem_cons.1 h with heq | hmem
    · rw [List.head?_cons, heq]
    · have hlt : e.1.toList < [] := (List.pairwise_cons.1 hs).1 _ hmem
      exact absurd hlt (List.not_lt_nil _)

theorem lookup_append (entries more : List (String × α)) :
    lookup key (entries ++ more) = (lookup key entries).or (lookup key more) := by
  induction entries with
  | nil => rfl
  | cons e rest ih =>
    obtain ⟨k, w⟩ := e
    rw [List.cons_append, lookup, lookup]
    split
    · rfl
    · exact ih

theorem lookup_mapWithKey (f : String → α → β) (key : String) (entries : List (String × α)) :
    lookup key (entries.map fun e => (e.1, f e.1 e.2)) = (lookup key entries).map (f key) := by
  induction entries with
  | nil => rfl
  | cons e rest ih =>
    obtain ⟨k, v⟩ := e
    rw [List.map_cons, lookup, lookup]
    split
    · next hk => rw [hk]; rfl
    · exact ih

theorem find?_mapWithKey (f : String → α → β) (m : KeyMap α) (key : String) :
    (m.mapWithKey f).find? key = (m.find? key).map (f key) :=
  lookup_mapWithKey f key m.entries

private theorem mem_foldl_insert {e : String × α} {m : KeyMap α} {entries : List (String × α)}
    (h : e ∈ (entries.foldl (fun m e => m.insert e.1 e.2) m).entries) :
    e ∈ m.entries ∨ e ∈ entries := by
  induction entries generalizing m with
  | nil => exact .inl h
  | cons f rest ih =>
    rcases ih h with h | h
    · rcases mem_insertEntry h with rfl | h
      · exact .inr List.mem_cons_self
      · exact .inl h
    · exact .inr (List.mem_cons_of_mem _ h)

theorem mem_of_mem_ofList {entries : List (String × α)} {e : String × α}
    (h : e ∈ (ofList entries).entries) : e ∈ entries :=
  (mem_foldl_insert h).resolve_left List.not_mem_nil

theorem lookup_eq_of_perm {entries entries' : List (String × α)} (h : entries.Perm entries')
    (hnames : (entries.map (·.1)).Nodup) : lookup key entries = lookup key entries' := by
  have hnames' := (h.map (·.1)).nodup hnames
  refine Option.ext fun v => ?_
  rw [lookup_eq_some_iff hnames, lookup_eq_some_iff hnames', h.mem_iff]

private theorem insertEntry_perm {entries : List (String × α)} (h : key ∉ entries.map (·.1)) :
    (insertEntry key v entries).Perm ((key, v) :: entries) := by
  induction entries with
  | nil => exact .refl _
  | cons e rest ih =>
    obtain ⟨k, w⟩ := e
    obtain ⟨hk, hrest⟩ := not_or.1 (mt List.mem_cons.2 h)
    rw [insertEntry]
    split
    · exact .refl _
    · exact ((ih hrest).cons _).trans (.swap _ _ _)

private theorem foldl_insert_perm {m : KeyMap α} {entries : List (String × α)}
    (h : ((m.entries ++ entries).map (·.1)).Nodup) :
    (entries.foldl (fun m e => m.insert e.1 e.2) m).entries.Perm (m.entries ++ entries) := by
  induction entries generalizing m with
  | nil => rw [List.append_nil, List.foldl_nil]
  | cons e rest ih =>
    -- The first entry is new to the map, so that putting it in only moves it to the front.
    have hshift : (m.entries ++ e :: rest).Perm (e :: (m.entries ++ rest)) :=
      List.perm_middle
    have hnames := (hshift.map (·.1)).nodup h
    have hfresh : e.1 ∉ m.entries.map (·.1) := fun hmem =>
      (List.nodup_cons.1 hnames).1 (by
        rw [List.map_append]
        exact List.mem_append_left _ hmem)
    have hinsert : ((m.insert e.1 e.2).entries ++ rest).Perm (e :: (m.entries ++ rest)) :=
      (insertEntry_perm hfresh).append_right rest
    rw [List.foldl_cons]
    exact (ih ((hinsert.map (·.1)).symm.nodup hnames)).trans (hinsert.trans hshift.symm)

/-- Entries under different names are all kept. -/
theorem ofList_perm {entries : List (String × α)} (h : (entries.map (·.1)).Nodup) :
    (ofList entries).entries.Perm entries :=
  foldl_insert_perm h

/-- A map is rebuilt from its entries in any order. -/
theorem ofList_eq_of_perm {m : KeyMap α} {entries : List (String × α)}
    (h : entries.Perm m.entries) : ofList entries = m := by
  have hnames := (h.map (·.1)).symm.nodup m.names_nodup
  refine ext (((ofList_perm hnames).trans h).eq_of_pairwise ?_ (ofList entries).ascending
    m.ascending)
  exact fun a b _ _ hab hba => absurd (String.lt_trans hab hba) (String.lt_irrefl _)

@[simp] theorem ofList_entries (m : KeyMap α) : ofList m.entries = m :=
  ofList_eq_of_perm (.refl _)

/-- An inserted entry takes the place of the one under its name. -/
private theorem mem_insertEntry_iff {e : String × α} {entries : List (String × α)}
    (h : entries.Pairwise fun a b => a.1 < b.1) :
    e ∈ insertEntry key v entries ↔ e = (key, v) ∨ (e ∈ entries ∧ e.1 ≠ key) := by
  induction entries with
  | nil => simp [insertEntry]
  | cons f rest ih =>
    obtain ⟨k, w⟩ := f
    obtain ⟨hfirst, hrest⟩ := List.pairwise_cons.1 h
    rw [insertEntry]
    split
    · next hlt =>
      have hne (a : String × α) (ha : a ∈ (k, w) :: rest) : a.1 ≠ key := by
        rcases List.mem_cons.1 ha with rfl | ha
        · exact Ne.symm (String.ne_of_lt hlt)
        · exact Ne.symm (String.ne_of_lt (String.lt_trans hlt (hfirst a ha)))
      rw [List.mem_cons, and_iff_left_of_imp (hne e)]
    · next hnot =>
      split
      · next heq =>
        have hne (a : String × α) (ha : a ∈ rest) : a.1 ≠ key := by
          rw [heq]
          exact Ne.symm (String.ne_of_lt (hfirst a ha))
        grind
      · next hne =>
        rw [List.mem_cons, ih hrest]
        grind

theorem mem_insert_iff {m : KeyMap α} {e : String × α} :
    e ∈ (m.insert key v).entries ↔ e = (key, v) ∨ (e ∈ m.entries ∧ e.1 ≠ key) :=
  mem_insertEntry_iff m.ascending

theorem find?_insert (m : KeyMap α) (key other : String) (v : α) :
    (m.insert key v).find? other = if other = key then some v else m.find? other := by
  split
  · next heq => exact find?_of_mem (mem_insert_iff.2 (.inl (heq ▸ rfl)))
  · next hne =>
    refine Option.ext fun w => ?_
    rw [find?_eq_some_iff, find?_eq_some_iff, mem_insert_iff]
    grind

private theorem eq_of_mem_iff {m m' : KeyMap α} (h : ∀ e, e ∈ m.entries ↔ e ∈ m'.entries) :
    m = m' := by
  have hm := List.Nodup.of_map _ m.names_nodup
  have hm' := List.Nodup.of_map _ m'.names_nodup
  have hperm : m.entries.Perm m'.entries := (List.perm_ext_iff_of_nodup hm hm').2 h
  rw [← ofList_entries m, ofList_eq_of_perm hperm]

/-- Values under different names are put in in any order. -/
theorem insert_comm {m : KeyMap α} {key' : String} (h : key ≠ key') (v v' : α) :
    (m.insert key v).insert key' v' = (m.insert key' v').insert key v := by
  apply eq_of_mem_iff
  intro e
  rw [mem_insert_iff, mem_insert_iff, mem_insert_iff, mem_insert_iff]
  grind

end MotionTemplate.KeyMap

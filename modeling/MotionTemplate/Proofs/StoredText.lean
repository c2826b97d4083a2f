import MotionTemplate.FileTree

/-! What is written to a file is what is read from it. A path leads to the same place before and
after, because it passes only through directories and none of them is the file. -/
namespace MotionTemplate

theorem mapError_eq_ok_iff {ε ε' α : Type} {f : ε → ε'} {x : Except ε α} {a : α} :
    x.mapError f = .ok a ↔ x = .ok a := by
  cases x with
  | error e => exact iff_of_false nofun nofun
  | ok b =>
    have hb : (Except.ok b).mapError f = .ok b := rfl
    rw [hb, Except.ok.injEq, Except.ok.injEq]

namespace FileTree

variable {t t' : FileTree} {path : String} {place : Place} {content : FileContent}

theorem node?_put_self {node : FileNode} (h : place ≠ []) :
    (t.put place node).node? place = some node := by
  simp [node?, put, h]

theorem node?_put_of_ne {node : FileNode} {other : Place} (h : other ≠ place) :
    (t.put place node).node? other = t.node? other := by
  have hfind : (t.put place node).nodes.find? (·.1 = other) = t.nodes.find? (·.1 = other) := by
    rw [put, List.find?_cons_of_neg (by simpa using h.symm), List.find?_filter]
    congr 1
    funext e
    by_cases he : e.1 = other <;> simp [he, h]
  rw [node?, node?, hfind]

private theorem walk_put {names : List String} {start : Place} {node : FileNode}
    (h : t.walk start names = .ok place) (hplace : t.node? place ≠ some .directory) :
    (t.put place node).walk start names = .ok place := by
  induction names generalizing start with
  | nil => exact h
  | cons name rest ih =>
    rw [walk] at h ⊢
    split at h
    · next hup => rw [if_pos hup, ih h]
    · next hup =>
      rw [if_neg hup]
      split at h
      · exact nomatch h
      · next hlong =>
        rw [if_neg hlong]
        split at h
        · next hlast => rw [if_pos hlast, h]
        · next hlast =>
          rw [if_neg hlast]
          split at h
          · exact nomatch h
          · exact nomatch h
          · next hdir =>
            -- The walk passes through directories, and what is written at is none.
            have hne : start ++ [name] ≠ place := fun he => hplace (he ▸ hdir)
            rw [node?_put_of_ne hne, hdir]
            exact ih h

private theorem locate_put {node : FileNode} (h : t.locate path = .ok place)
    (hplace : t.node? place ≠ some .directory) : (t.put place node).locate path = .ok place := by
  rw [locate] at h ⊢
  split at h
  · exact nomatch h
  · next h₁ =>
    split at h
    · exact nomatch h
    · next h₂ =>
      split at h
      · exact nomatch h
      · next h₃ =>
        rw [if_neg h₁, if_neg h₂, if_neg h₃]
        exact walk_put h hplace

private theorem eq_of_guards {refused named : Bool} {e e' : FileError}
    (h : (if refused then .error e else if named then .error e' else .ok t) = Except.ok t') :
    named = false ∧ t' = t := by
  split at h
  · exact nomatch h
  · split at h
    · exact nomatch h
    · next hn => exact ⟨Bool.eq_false_iff.2 hn, (Except.ok.inj h).symm⟩

/-- A file that was written is put at a place that is no directory, under a path that names none. -/
private theorem write_eq_ok (h : t.write path content = .ok t') :
    ∃ place, t.locate path = .ok place ∧ t.node? place ≠ some .directory ∧
      Path.namesDirectory path = false ∧ t' = t.put place (.file content) := by
  cases hl : t.locate path with
  | error e =>
    rw [write, hl] at h
    exact nomatch h
  | ok place =>
    simp only [write, hl, bind, Except.bind] at h
    refine ⟨place, rfl, ?_⟩
    split at h
    · exact nomatch h
    all_goals
      next hnode =>
        rw [hnode]
        exact ⟨nofun, eq_of_guards h⟩

theorem readText_of_write {text : String} (h : t.write path (.text text) = .ok t') :
    t'.readText path = .ok text := by
  obtain ⟨place, hl, hdir, hname, rfl⟩ := write_eq_ok h
  have hne : place ≠ [] := fun he => hdir (he ▸ rfl)
  have hlookup : (t.put place (.file (.text text))).lookup path = .ok (.file (.text text)) := by
    simp only [lookup, locate_put hl hdir, bind, Except.bind, node?_put_self hne, hname]
    rfl
  rw [readText, hlookup]
  rfl

theorem pathExists_of_readText {text : String} (h : t.readText path = .ok text) :
    t.pathExists path = true := by
  rw [pathExists]
  cases hl : t.lookup path with
  | error e =>
    rw [readText, hl] at h
    exact nomatch h
  | ok node => rfl

/-- A save that succeeds ends with a write. -/
private theorem exists_write_of_save {text : String} (h : t.save path text = .ok t') :
    ∃ above, write above path (.text text) = .ok t' := by
  rw [save, saving] at h
  cases hp : Path.parent? path with
  | none =>
    simp only [hp, Steps.outcome_adaptExcept, Steps.outcome_once] at h
    exact ⟨t, mapError_eq_ok_iff.1 h⟩
  | some dir =>
    simp only [hp, Steps.outcome_bind, Steps.outcome_adaptExcept, Steps.outcome_once] at h
    cases hdirs : (creatingDirectories dir).outcome t with
    | error e =>
      rw [hdirs] at h
      cases h
    | ok above =>
      rw [hdirs] at h
      exact ⟨above, mapError_eq_ok_iff.1 h⟩

/-- A saved text is read back from its path. -/
theorem readText_of_save {text : String} (h : t.save path text = .ok t') :
    t'.readText path = .ok text := by
  obtain ⟨above, hwrite⟩ := exists_write_of_save h
  exact readText_of_write hwrite

end FileTree

end MotionTemplate

import MotionTemplate.Proofs.StageRun

/-! Previewers on one stage keep out of each other's way. Each is as it would be on a stage of its
own, the loop knows those that are mounted and no others, and nothing reaches one that was
unmounted. -/
namespace MotionTemplate

/-- The previewer of a seat is unmounted. -/
def StageAction.unmounts (i : Nat) : StageAction → Bool
  | .command j c => j = i && c = .unmount
  | _ => false

/-- What an action is on a stage where the previewer of a seat is alone, as far as it is met there.
Ticks are met as long as it is mounted. -/
def StageAction.alone? (i : Nat) (mounted : Bool) : StageAction → Option StageAction
  | .tick now => if mounted then some (.tick now) else none
  | .clock c => some (.clock c)
  | .command j c => if j = i then some (.command 0 c) else none
  | .mount .. | .load .. | .drop .. => none

namespace Stage

/-- What is met of some actions on a stage where the previewer of a seat is alone: its own commands,
the readings of its clock and the ticks up to its unmount. -/
def alone (i : Nat) (mounted : Bool) : List StageAction → List StageAction
  | [] => []
  | a :: rest => (a.alone? i mounted).toList ++ alone i (mounted && !a.unmounts i) rest

/-- The previewer of a seat. -/
def previewer? (s : Stage) (i : Nat) : Option Previewer := (s.seat? i).map (·.previewer)

/-- How many previewers are mounted. -/
def mountedCount (s : Stage) : Nat := s.seats.countP (·.any (·.previewer.mounted))

/-- What holds of previewers on a stage. -/
structure Isolates (s : Stage) : Prop where
  /-- The loop has a subscriber for every previewer that is mounted. -/
  counted : s.loop.subscribers.length = s.mountedCount
  /-- A mount that fails leaves the loop and the previewers as they were. -/
  refused : ∀ d c options e, (s.mount d c options).2 = .error e →
    (s.mount d c options).1.loop = s.loop ∧ (s.mount d c options).1.seats = s.seats
  /-- So does a load. -/
  unloaded : ∀ files path c options e, (s.load files path c options).2 = .error e →
    (s.load files path c options).1.loop = s.loop ∧
      (s.load files path c options).1.seats = s.seats
  /-- A load that does not fail is a mount of the definition in the file. -/
  loaded : ∀ files path c options t i, s.load files path c options = (t, .ok i) →
    ∃ d, Definition.load files path = .ok d ∧ s.mount d c options = (t, .ok i)
  /-- A previewer is as it is when it is alone with what it meets. -/
  apart : ∀ d c options t i, s.mount d c options = (t, .ok i) → ∀ after, .drop i ∉ after →
    ∃ p, (t.run after).previewer? i = some p ∧
      (((empty s.clock).mount d c options).1.run (alone i true after)).previewer? 0 = some p
  /-- No tick and no resize changes a previewer that was unmounted. -/
  unmounted : ∀ d c options t i, s.mount d c options = (t, .ok i) → ∀ after, .drop i ∉ after →
    .command i .unmount ∈ after → ∀ now width, ∃ p, (t.run after).previewer? i = some p ∧
      ((t.run after).tick now).1.previewer? i = some p ∧
      ((t.run after).command i (.resize width)).1.previewer? i = some p

variable {s t lone : Stage} {i : Nat} {seat : Seat} {p : Previewer} {a : StageAction}

/-- The subscription of a seat whose previewer is mounted. -/
private def mountedId? (seat : Option Seat) : Option Nat :=
  (seat.filter (·.previewer.mounted)).map (·.subscription)

/-- The subscriptions of those that are mounted. -/
private def mountedIds (s : Stage) : List Nat := s.seats.filterMap mountedId?

private theorem length_mountedIds (s : Stage) : s.mountedIds.length = s.mountedCount := by
  rw [mountedIds, List.length_filterMap_eq_countP, mountedCount]
  refine List.countP_congr fun seat _ => ?_
  cases seat <;> simp [mountedId?, Option.filter]

private theorem mountedId?_of_mounted (h : seat.previewer.mounted = true) :
    mountedId? (some seat) = some seat.subscription := by
  simp [mountedId?, Option.filter, h]

private theorem mountedId?_of_unmounted (h : seat.previewer.mounted = false) :
    mountedId? (some seat) = none := by
  simp [mountedId?, Option.filter, h]

private theorem mountedId?_congr (h : p.mounted = seat.previewer.mounted) :
    mountedId? (some { seat with previewer := p }) = mountedId? (some seat) := by
  simp [mountedId?, Option.filter, h]

/-- A seat that is replaced changes nothing if it stays mounted or unmounted. -/
private theorem filterMap_set {seats : List (Option Seat)} {new : Option Seat}
    (h : ∀ old, seats[i]? = some old → mountedId? new = mountedId? old) :
    (seats.set i new).filterMap mountedId? = seats.filterMap mountedId? := by
  by_cases hi : i < seats.length
  · obtain ⟨before, after, hseats, -, hset⟩ := @List.exists_of_set _ i new seats hi
    rw [hset, hseats, List.filterMap_append, List.filterMap_append, List.filterMap_cons,
      List.filterMap_cons, h _ (List.getElem?_eq_getElem hi)]
  · rw [List.set_eq_of_length_le (Nat.le_of_not_lt hi)]

private theorem getElem?_of_seat? (hi : s.seat? i = some seat) : s.seats[i]? = some (some seat) :=
  Option.join_eq_some_iff.1 hi

/-- A seat that is mounted no longer is taken out. -/
private theorem filterMap_set_unmounted (hi : s.seat? i = some seat)
    (hm : seat.previewer.mounted = true) (hn : s.mountedIds.Nodup) {new : Option Seat}
    (hnew : mountedId? new = none) :
    (s.seats.set i new).filterMap mountedId? = s.mountedIds.erase seat.subscription := by
  obtain ⟨before, after, hseats, -, hset⟩ := @List.exists_of_set _ i new _ (lt_of_seat? hi)
  obtain ⟨hlt, hget⟩ := List.getElem?_eq_some_iff.1 (getElem?_of_seat? hi)
  have hids : s.mountedIds =
      before.filterMap mountedId? ++ seat.subscription :: after.filterMap mountedId? := by
    rw [mountedIds, hseats, hget, List.filterMap_append,
      List.filterMap_cons_some (mountedId?_of_mounted hm)]
  rw [hids] at hn ⊢
  have hbefore : seat.subscription ∉ before.filterMap mountedId? := fun hmem =>
    (List.nodup_append.1 hn).2.2 _ hmem _ List.mem_cons_self rfl
  rw [hset, List.filterMap_append, List.filterMap_cons_none hnew,
    List.erase_append_right _ hbefore, List.erase_cons_head]

/-- The loop knows the previewers that are mounted, in the order of their seats. -/
private def Listed (s : Stage) : Prop := s.loop.subscribers = s.mountedIds

private theorem listed_tick (h : s.Wired) (hl : s.Listed) (now : Float) :
    ((s.tick now).1).Listed := by
  obtain ⟨log, htick⟩ := tick_eq h now
  have hid : mountedId? ∘ Option.map (tickIn s.loop.subscribers now) = mountedId? := by
    funext seat
    cases seat with
    | none => rfl
    | some seat =>
      rw [Function.comp_apply, Option.map_some, tickIn]
      split
      · exact mountedId?_congr rfl
      · rfl
  rw [htick, Listed, mountedIds, List.filterMap_map, hid]
  exact hl

private theorem listed_mount (hl : s.Listed) (d : Definition) (c : Customization)
    (options : PreviewOptions) : ((s.mount d c options).1).Listed := by
  obtain ⟨log, hs⟩ | ⟨p, log, hp, hs⟩ := mount_cases s d c options
  · rw [hs]
    exact hl
  · obtain ⟨scale, rfl⟩ := Previewer.mount_eq hp
    rw [hs, Listed, mountedIds, List.filterMap_append]
    exact congrArg (· ++ [s.loop.nextId]) hl

private theorem listed_command (h : s.Wired) (hl : s.Listed) (i : Nat) (c : PreviewCommand) :
    ((s.command i c).1).Listed := by
  cases hi : s.seat? i with
  | none =>
    simp only [command, hi]
    exact hl
  | some seat =>
    obtain ⟨log, hs⟩ := command_eq hi c
    have hnew := Previewer.mounted_command seat.previewer s.clock.now c
    have hkeep (hm : (seat.previewer.meet (.command s.clock.now c)).1.mounted =
        seat.previewer.mounted) : (s.seats.set i (some { seat with
          previewer := (seat.previewer.meet (.command s.clock.now c)).1 })).filterMap mountedId? =
        s.mountedIds := by
      refine filterMap_set fun old hold => (mountedId?_congr hm).trans (congrArg _ ?_)
      exact Option.some.inj ((getElem?_of_seat? hi).symm.trans hold)
    rw [hs, Listed, mountedIds]
    by_cases hc : c = .unmount
    · rw [if_pos hc] at hnew ⊢
      cases hm : seat.previewer.mounted with
      | true =>
        rw [filterMap_set_unmounted hi hm (hl ▸ h.nodup) (mountedId?_of_unmounted hnew)]
        exact congrArg (List.erase · seat.subscription) hl
      | false =>
        have hgone : seat.subscription ∉ s.loop.subscribers := fun hmem =>
          Bool.false_ne_true (hm.symm.trans ((h.mounted hi).2 hmem))
        rw [hkeep (hnew.trans hm.symm), FrameLoop.cancel, List.erase_of_not_mem hgone]
        exact hl
    · rw [if_neg hc] at hnew ⊢
      rw [hkeep hnew]
      exact hl

/-- A previewer is mounted until an unmount of its own. -/
private theorem mounted_eventOf (s : Stage) (i : Nat) (p : Previewer) (a : StageAction) :
    (p.after (s.eventOf? i a).toList).mounted = (p.mounted && !a.unmounts i) := by
  cases a with
  | tick now =>
    have htick : (p.meet (.tick now)).1.mounted = p.mounted := by
      rw [Previewer.meet_tick]
      split <;> rfl
    exact htick.trans (Bool.and_true _).symm
  | command j c =>
    by_cases hj : j = i
    · have hmeet := Previewer.mounted_command p s.clock.now c
      simp only [eventOf?, StageAction.unmounts, hj, decide_true, Bool.true_and]
      refine hmeet.trans ?_
      by_cases hc : c = .unmount <;> simp [hc]
    · simp only [eventOf?, StageAction.unmounts, hj, decide_false, Bool.false_and,
        Bool.not_false, Bool.and_true]
      rfl
  | clock | mount | load | drop => exact (Bool.and_true _).symm

private theorem listed_drop (h : s.Wired) (hl : s.Listed) (i : Nat) : (s.drop i).Listed := by
  have hunmounted := listed_command h hl i .unmount
  refine hunmounted.trans (filterMap_set fun old hold => ?_).symm
  cases old with
  | none => rfl
  | some new =>
    have hseat : ((s.command i .unmount).1).seat? i = some new := by
      rw [seat?, hold]
      rfl
    cases hi : s.seat? i with
    | none =>
      simp only [command, hi] at hseat
      contradiction
    | some seat =>
      have hact := seat?_act h hi (a := .command i .unmount) (by simp)
      obtain rfl := Option.some.inj (hact.symm.trans hseat)
      refine (mountedId?_of_unmounted ?_).symm
      rw [mounted_eventOf]
      simp [StageAction.unmounts]

private theorem listed_act (h : s.Wired) (hl : s.Listed) (a : StageAction) : (s.act a).Listed := by
  cases a with
  | tick now => exact listed_tick h hl now
  | clock c => exact hl
  | mount d c options => exact listed_mount hl d c options
  | load files path c options =>
    rw [act, load]
    split
    · exact hl
    · exact listed_mount hl _ c options
  | command i c => exact listed_command h hl i c
  | drop i => exact listed_drop h hl i

private theorem listed_run (h : s.Wired) (hl : s.Listed) (actions : List StageAction) :
    (s.run actions).Listed := by
  induction actions generalizing s with
  | nil => exact hl
  | cons a rest ih => exact ih (wired_act h a) (listed_act h hl a)

/-- The previewer of a seat is as the only one of another stage. -/
private structure Mirrors (i : Nat) (s lone : Stage) (p : Previewer) : Prop where
  wired : s.Wired
  lone_wired : lone.Wired
  seat : ∃ id, s.seat? i = some ⟨p, id⟩
  lone_seat : ∃ id, lone.seat? 0 = some ⟨p, id⟩
  clock : s.clock = lone.clock

private theorem clock_command (s : Stage) (i : Nat) (c : PreviewCommand) :
    ((s.command i c).1).clock = s.clock := by
  cases hi : s.seat? i with
  | none => simp only [command, hi]
  | some seat =>
    obtain ⟨log, hs⟩ := command_eq hi c
    rw [hs]

private theorem clock_mount (s : Stage) (d : Definition) (c : Customization)
    (options : PreviewOptions) : ((s.mount d c options).1).clock = s.clock := by
  obtain ⟨log, hs⟩ | ⟨p, log, -, hs⟩ := mount_cases s d c options <;> rw [hs]

/-- Nothing but a new reading moves the clock. -/
private theorem clock_act (h : s.Wired) (a : StageAction) :
    (s.act a).clock = match a with | .clock c => c | _ => s.clock := by
  cases a with
  | tick now =>
    obtain ⟨log, htick⟩ := tick_eq h now
    rw [act, htick]
  | clock c => rfl
  | mount d c options => exact clock_mount s d c options
  | load files path c options =>
    rw [act, load]
    split
    · rfl
    · exact clock_mount s _ c options
  | command i c => exact clock_command s i c
  | drop i => exact clock_command s i .unmount

/-- An action means the same to a previewer when it is alone. -/
private theorem Mirrors.act (h : Mirrors i s lone p) (ha : a ≠ .drop i) :
    Mirrors i (s.act a) (lone.run (a.alone? i p.mounted).toList)
      (p.after (s.eventOf? i a).toList) := by
  obtain ⟨id, hseat⟩ := h.seat
  obtain ⟨lid, hlone⟩ := h.lone_seat
  have hact := seat?_act h.wired hseat ha
  have hwired := wired_act h.wired a
  have hclock := clock_act h.wired a
  -- where the previewer meets nothing, its own stage stays as it is
  have hstay (hnone : p.after (s.eventOf? i a).toList = p) (hc : (s.act a).clock = s.clock) :
      Mirrors i (s.act a) lone (p.after (s.eventOf? i a).toList) :=
    ⟨hwired, h.lone_wired, ⟨id, hact⟩, ⟨lid, hnone.symm ▸ hlone⟩, hc.trans h.clock⟩
  have hmove (b : StageAction) (hb : b ≠ .drop 0) (he : lone.eventOf? 0 b = s.eventOf? i a)
      (hc : (s.act a).clock = (lone.act b).clock) :
      Mirrors i (s.act a) (lone.act b) (p.after (s.eventOf? i a).toList) :=
    ⟨hwired, wired_act h.lone_wired b, ⟨id, hact⟩, ⟨lid, he ▸ seat?_act h.lone_wired hlone hb⟩, hc⟩
  cases a with
  | tick now =>
    cases hm : p.mounted with
    | true =>
      refine hmove (.tick now) nofun rfl ?_
      exact hclock.trans (h.clock.trans (clock_act h.lone_wired (.tick now)).symm)
    | false =>
      refine hstay ?_ hclock
      exact (Previewer.meet_tick p now).trans (if_neg (hm ▸ Bool.false_ne_true))
  | clock c => exact hmove (.clock c) nofun rfl rfl
  | command j c =>
    by_cases hj : j = i
    · rw [StageAction.alone?, if_pos hj]
      refine hmove (.command 0 c) nofun ?_ ?_
      · simp [eventOf?, hj, h.clock]
      · exact hclock.trans (h.clock.trans (clock_act h.lone_wired (.command 0 c)).symm)
    · rw [StageAction.alone?, if_neg hj]
      refine hstay ?_ hclock
      rw [eventOf?, if_neg hj]
      rfl
  | mount | load | drop => exact hstay rfl hclock

private theorem Mirrors.run (h : Mirrors i s lone p) {actions : List StageAction}
    (ha : .drop i ∉ actions) :
    Mirrors i (s.run actions) (lone.run (alone i p.mounted actions))
      (p.after (s.eventsOf i actions)) := by
  induction actions generalizing s lone p with
  | nil => exact h
  | cons a rest ih =>
    rw [List.mem_cons, not_or] at ha
    have hnext := ih (h.act (Ne.symm ha.1)) ha.2
    rw [mounted_eventOf] at hnext
    rw [alone, Stage.run, Stage.run, List.foldl_append, eventsOf, Previewer.after,
      List.foldl_append]
    exact hnext

private theorem mounted_eventsOf (s : Stage) (i : Nat) (p : Previewer)
    (actions : List StageAction) : (p.after (s.eventsOf i actions)).mounted =
      (p.mounted && actions.all (!·.unmounts i)) := by
  induction actions generalizing s p with
  | nil => exact (Bool.and_true _).symm
  | cons a rest ih =>
    rw [eventsOf, Previewer.after, List.foldl_append, List.all_cons, ← Bool.and_assoc,
      ← mounted_eventOf s]
    exact ih (s.act a) _

section

variable {d : Definition} {c : Customization} {options : PreviewOptions} {e : PreviewError}

private theorem mount_refused (h : (s.mount d c options).2 = .error e) :
    (s.mount d c options).1.loop = s.loop ∧ (s.mount d c options).1.seats = s.seats := by
  cases hp : Previewer.mount d c options with
  | error e =>
    obtain ⟨log, hm⟩ := mount_error (s := s) hp
    rw [hm]
    exact ⟨rfl, rfl⟩
  | ok p =>
    obtain ⟨log, hm⟩ := mount_ok (s := s) hp
    rw [hm] at h
    contradiction

/-- A previewer that was just mounted is as on a stage of its own. -/
private theorem mirrors_mount (h : s.Wired) (hmount : s.mount d c options = (t, .ok i)) :
    ∃ p, p.mounted = true ∧ Mirrors i t ((empty s.clock).mount d c options).1 p := by
  obtain ⟨p, hp, hseat⟩ := seat?_of_mount hmount
  obtain ⟨log, hlone⟩ := mount_ok (s := empty s.clock) hp
  have hm : p.mounted = true := by
    obtain ⟨scale, rfl⟩ := Previewer.mount_eq hp
    rfl
  have hwired := wired_act h (.mount d c options)
  have hclock := clock_mount s d c options
  rw [act, hmount] at hwired
  rw [hmount] at hclock
  have hlone_wired := wired_act (wired_empty s.clock) (.mount d c options)
  rw [act, hlone] at hlone_wired
  rw [hlone]
  exact ⟨p, hm, hwired, hlone_wired, ⟨_, hseat⟩, ⟨_, rfl⟩, hclock⟩

private theorem Mirrors.previewer (h : Mirrors i s lone p) :
    s.previewer? i = some p ∧ lone.previewer? 0 = some p := by
  obtain ⟨id, hseat⟩ := h.seat
  obtain ⟨lid, hlone⟩ := h.lone_seat
  rw [previewer?, previewer?, hseat, hlone]
  exact ⟨rfl, rfl⟩

/-- What is not mounted is not resized. -/
private theorem resize_of_not_mounted (hm : ¬p.mounted) (now width : Float) :
    (p.meet (.command now (.resize width))).1 = p := by
  rw [Previewer.meet_command, Previewer.command, if_neg hm]

private theorem Mirrors.unmounted (h : Mirrors i s lone p) (hm : ¬p.mounted) (now width : Float) :
    (s.tick now).1.previewer? i = some p ∧
      (s.command i (.resize width)).1.previewer? i = some p := by
  obtain ⟨id, hseat⟩ := h.seat
  have htick : (s.tick now).1.seat? i = _ := seat?_act h.wired hseat (a := .tick now) nofun
  have hresize : (s.command i (.resize width)).1.seat? i = _ :=
    seat?_act h.wired hseat (a := .command i (.resize width)) nofun
  constructor
  · rw [previewer?, htick]
    exact congrArg some ((Previewer.meet_tick p now).trans (if_neg hm))
  · rw [previewer?, hresize, eventOf?, if_pos rfl]
    exact congrArg some (resize_of_not_mounted hm _ width)

/-- Whatever is done on a stage, its previewers keep out of each other's way. -/
theorem run_isolates (clock : Clock) (actions : List StageAction) :
    ((empty clock).run actions).Isolates := by
  generalize hs : (empty clock).run actions = s
  have hwired : s.Wired := hs ▸ wired_run (wired_empty clock) actions
  have hlisted : s.Listed := hs ▸ listed_run (wired_empty clock) rfl actions
  refine ⟨?_, ?_, ?_, ?_, ?_, ?_⟩
  · rw [← length_mountedIds]
    exact congrArg List.length hlisted
  · intro d c options e he
    exact mount_refused he
  · intro files path c options e he
    rw [load] at he ⊢
    split
    · exact ⟨rfl, rfl⟩
    · next d hd =>
      rw [hd] at he
      exact mount_refused he
  · intro files path c options t i hload
    rw [load] at hload
    split at hload
    · cases (Prod.mk.inj hload).2
    · next d hd => exact ⟨d, hd, hload⟩
  · intro d c options t i hmount after hdrop
    obtain ⟨p, hm, h⟩ := mirrors_mount hwired hmount
    have hrun := (h.run hdrop).previewer
    rw [hm] at hrun
    exact ⟨_, hrun⟩
  · intro d c options t i hmount after hdrop hunmount now width
    obtain ⟨p, -, h⟩ := mirrors_mount hwired hmount
    have hrun := h.run hdrop
    have hm : ¬(p.after (t.eventsOf i after)).mounted := by
      rw [mounted_eventsOf, Bool.and_eq_true, List.all_eq_true]
      intro hall
      simpa [StageAction.unmounts] using hall.2 _ hunmount
    exact ⟨_, hrun.previewer.1, hrun.unmounted hm now width⟩

end

/-- An empty canvas. -/
private def blankCard : Definition := Definition.new "card" "Card" 1080 1920 30

/-- The second of two previewers meets a tick and a jump and is unmounted, while the first one is
edited. -/
theorem second_previewer_isolated :
    let s := (empty .zero).run [.mount blankCard .empty .standard]
    let after : List StageAction := [.tick 0.5, .command 0 (.setTheme "gold"),
      .command 1 (.scrubTo 1.5), .command 1 .unmount, .command 0 .play, .tick 2.5]
    s.loop.subscribers.length = s.mountedCount ∧
      ∃ p, ((s.mount blankCard .empty .standard).1.run after).previewer? 1 = some p ∧
        (((empty .zero).mount blankCard .empty .standard).1.run [.tick 0.5,
          .command 0 (.scrubTo 1.5), .command 0 .unmount]).previewer? 0 = some p := by
  intro s after
  have h := run_isolates .zero [.mount blankCard .empty .standard]
  obtain ⟨p, hp⟩ : ∃ p, Previewer.mount blankCard .empty .standard = .ok p := ⟨_, rfl⟩
  obtain ⟨log, hs⟩ := mount_ok (s := empty .zero) hp
  have hseats : s.seats.length = 1 := by
    change ((empty .zero).mount blankCard .empty .standard).1.seats.length = 1
    rw [hs]
    rfl
  have hclock : s.clock = .zero := clock_mount _ _ _ _
  obtain ⟨log', hs'⟩ := mount_ok (s := s) hp
  have hmount : s.mount blankCard .empty .standard =
      ((s.mount blankCard .empty .standard).1, .ok 1) := by
    refine Prod.ext rfl ?_
    rw [hs', hseats]
  obtain ⟨q, hq, hlone⟩ := h.apart _ _ _ _ _ hmount after (by simp [after])
  rw [hclock] at hlone
  exact ⟨h.counted, q, hq, hlone⟩

end Stage

end MotionTemplate

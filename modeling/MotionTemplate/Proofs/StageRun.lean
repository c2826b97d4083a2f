import MotionTemplate.Preview.Stage
import MotionTemplate.Proofs.PreviewEvent

/-! Runs of a stage. Whatever else happens on it, a previewer meets the commands that are meant for
it and, as long as it is mounted, every tick of the loop once. -/
namespace MotionTemplate

/-- What happens on a stage. -/
inductive StageAction where
  | tick (now : Float)
  /-- The clock is set to any reading. -/
  | clock (c : Clock)
  | mount (d : Definition) (c : Customization) (options : PreviewOptions)
  | load (files : FileTree) (path : String) (c : Customization) (options : PreviewOptions)
  | command (i : Nat) (c : PreviewCommand)
  | drop (i : Nat)

namespace Stage

def act (s : Stage) : StageAction → Stage
  | .tick now => (s.tick now).1
  | .clock c => { s with clock := c }
  | .mount d c options => (s.mount d c options).1
  | .load files path c options => (s.load files path c options).1
  | .command i c => (s.command i c).1
  | .drop i => s.drop i

/-- The stage after some actions. -/
def run (s : Stage) (actions : List StageAction) : Stage := actions.foldl act s

/-- What an action means to the previewer of a seat. -/
def eventOf? (s : Stage) (i : Nat) : StageAction → Option PreviewEvent
  | .tick now => some (.tick now)
  | .command j c => if j = i then some (.command s.clock.now c) else none
  | _ => none

/-- What the previewer of a seat meets in some actions. -/
def eventsOf (s : Stage) (i : Nat) : List StageAction → List PreviewEvent
  | [] => []
  | a :: rest => (s.eventOf? i a).toList ++ (s.act a).eventsOf i rest

/-- Between actions no tick is in progress, subscriptions are never shared or used again, and the
loop knows the previewers that are mounted. -/
structure Wired (s : Stage) : Prop where
  idle : s.loop.turns = []
  nodup : s.loop.subscribers.Nodup
  used : ∀ id ∈ s.loop.subscribers, id < s.loop.nextId
  taken : ∀ {i seat}, s.seat? i = some seat → seat.subscription < s.loop.nextId
  own : ∀ {i j a b}, s.seat? i = some a → s.seat? j = some b →
    a.subscription = b.subscription → i = j
  mounted : ∀ {i seat}, s.seat? i = some seat →
    (seat.previewer.mounted ↔ seat.subscription ∈ s.loop.subscribers)

variable {s : Stage} {i : Nat} {seat : Seat}

theorem wired_empty (clock : Clock) : (empty clock).Wired where
  idle := rfl
  nodup := .nil
  used := nofun
  taken := nofun
  own := nofun
  mounted := nofun

theorem lt_of_seat? (h : s.seat? i = some seat) : i < s.seats.length := by
  rw [seat?, Option.join_eq_some_iff] at h
  exact (List.getElem?_eq_some_iff.1 h).1

private theorem seat?_set {j : Nat} {new : Option Seat} {t : Stage}
    (ht : t.seats = s.seats.set i new) :
    t.seat? j = if j = i ∧ i < s.seats.length then new else s.seat? j := by
  rw [seat?, ht, List.getElem?_set]
  split
  · next h =>
    subst h
    split
    · next hlt => rw [if_pos ⟨rfl, hlt⟩, Option.join_some]
    · next hlt => simp [seat?, hlt]
  · next h => rw [if_neg fun hj => h hj.1.symm, seat?]

/-- The seat with its frame, if its turn comes among others. -/
def tickIn (ids : List Nat) (now : Float) (seat : Seat) : Seat :=
  if seat.subscription ∈ ids then { seat with previewer := seat.previewer.tick now } else seat

private theorem tickIn_nil (now : Float) : tickIn [] now = id := by
  funext seat
  simp [tickIn]

/-- A tick keeps the subscription, so the turns of different subscribers do not meet. -/
private theorem tickIn_cons {id : Nat} {rest : List Nat} (now : Float) (h : id ∉ rest) :
    tickIn (id :: rest) now = tickIn rest now ∘ tickIn [id] now := by
  funext seat
  simp only [tickIn, Function.comp_apply, List.mem_cons, List.not_mem_nil, or_false]
  by_cases hid : seat.subscription = id
  · simp [hid, h]
  · simp [hid]

private theorem frame_eq (s : Stage) (id : Nat) (now : Float) :
    ∃ log, s.frame id now =
      { s with seats := s.seats.map (Option.map (tickIn [id] now)), log } := by
  have h : tickIn [id] now = fun seat =>
      if seat.subscription = id then { seat with previewer := seat.previewer.tick now }
      else seat := by
    funext seat
    simp [tickIn]
  rw [h]
  exact ⟨_, rfl⟩

private theorem step_call {l : FrameLoop} {tick : FrameTick} {id k : Nat} {rest : List Nat}
    (hsub : id ∈ l.subscribers) (ht : l.turns = [⟨tick, id :: rest, none, k⟩]) :
    l.step = ({ l with turns := [⟨tick, rest, some id, k + 1⟩] }, .call id tick) := by
  have hactive : l.isActive id = true := by simpa [FrameLoop.isActive] using hsub
  have hidle : l.isRunning id = false := by simp [FrameLoop.isRunning, ht]
  simp [FrameLoop.step, ht, hactive, hidle]

/-- With every pending subscriber in the loop, each has its turn, and none has two. -/
private theorem takeTurn_eq {fuel k : Nat} {tick : FrameTick} {ids : List Nat}
    (hfuel : ids.length < fuel) (hn : ids.Nodup) (hsub : ∀ id ∈ ids, id ∈ s.loop.subscribers)
    (ht : s.loop.turns = [⟨tick, ids, none, k⟩]) :
    ∃ log, takeTurn fuel s =
      ({ s with
          loop := { s.loop with turns := [] }
          seats := s.seats.map (Option.map (tickIn ids tick.now))
          log },
        k + ids.length) := by
  induction ids generalizing s fuel k with
  | nil =>
    obtain ⟨fuel, rfl⟩ := Nat.exists_eq_add_one_of_ne_zero (Nat.ne_of_gt hfuel)
    simp only [takeTurn, FrameLoop.step, ht, tickIn_nil, Option.map_id, List.map_id]
    exact ⟨s.log, rfl⟩
  | cons id rest ih =>
    obtain ⟨fuel, rfl⟩ := Nat.exists_eq_add_one_of_ne_zero (Nat.ne_zero_of_lt hfuel)
    obtain ⟨hid, hrest⟩ := List.nodup_cons.1 hn
    let turned : Stage :=
      { s with loop := { s.loop with turns := [⟨tick, rest, some id, k + 1⟩] } }
    obtain ⟨log, hframe⟩ := frame_eq turned id tick.now
    let next : Stage :=
      { s with
        loop := { s.loop with turns := [⟨tick, rest, none, k + 1⟩] }
        seats := s.seats.map (Option.map (tickIn [id] tick.now))
        log }
    have hstep : takeTurn (fuel + 1) s = takeTurn fuel next := by
      rw [takeTurn, step_call (hsub id List.mem_cons_self) ht]
      change takeTurn fuel { turned.frame id tick.now with
        loop := (turned.frame id tick.now).loop.returned } = _
      rw [hframe]
      rfl
    obtain ⟨log', hih⟩ := ih (s := next) (k := k + 1) (Nat.lt_of_succ_lt_succ hfuel) hrest
      (fun j hj => hsub j (List.mem_cons_of_mem _ hj)) rfl
    refine ⟨log', ?_⟩
    rw [hstep, hih, tickIn_cons tick.now hid, ← Option.map_comp_map, ← List.map_map,
      List.length_cons]
    congr 1
    omega

/-- A tick gives every subscriber one turn. -/
theorem tick_eq (h : s.Wired) (now : Float) :
    ∃ log, s.tick now =
      ({ s with
          loop := { s.loop with frameIndex := s.loop.frameIndex + 1 }
          seats := s.seats.map (Option.map (tickIn s.loop.subscribers now))
          log },
        s.loop.subscribers.length) := by
  obtain ⟨log, htick⟩ := takeTurn_eq (s := { s with loop := s.loop.begin now })
    (Nat.lt_succ_self s.loop.subscribers.length) h.nodup (fun _ hid => hid)
    (show (s.loop.begin now).turns = _ by rw [FrameLoop.begin, h.idle])
  refine ⟨log, ?_⟩
  rw [tick, htick, Nat.zero_add, ← h.idle]
  rfl

private theorem tickIn_eq_meet (h : s.Wired) (hi : s.seat? i = some seat) (now : Float) :
    tickIn s.loop.subscribers now seat =
      { seat with previewer := (seat.previewer.meet (.tick now)).1 } := by
  rw [tickIn, Previewer.meet_tick]
  by_cases hm : seat.previewer.mounted
  · rw [if_pos hm, if_pos ((h.mounted hi).1 hm)]
  · rw [if_neg hm, if_neg fun hs => hm ((h.mounted hi).2 hs)]

private theorem seat?_tick (h : s.Wired) (now : Float) (i : Nat) :
    ((s.tick now).1).seat? i = (s.seat? i).map
      fun seat => { seat with previewer := (seat.previewer.meet (.tick now)).1 } := by
  obtain ⟨log, htick⟩ := tick_eq h now
  have hmap : ((s.tick now).1).seat? i =
      (s.seat? i).map (tickIn s.loop.subscribers now) := by
    rw [htick, seat?, seat?, List.getElem?_map]
    cases s.seats[i]? <;> rfl
  rw [hmap]
  cases hi : s.seat? i with
  | none => rfl
  | some seat => rw [Option.map_some, Option.map_some, tickIn_eq_meet h hi]

/-- A new seat goes behind the others. -/
private theorem seat?_append {j : Nat} {new : Seat} {t : Stage}
    (ht : t.seats = s.seats ++ [some new]) :
    t.seat? j = if j = s.seats.length then some new else s.seat? j := by
  rw [seat?, ht]
  split
  · next h => simp [h]
  · next h =>
    rcases Nat.lt_or_gt_of_ne h with hlt | hgt
    · rw [List.getElem?_append_left hlt, seat?]
    · rw [seat?, List.getElem?_eq_none (by simp; omega), List.getElem?_eq_none (by omega)]

section

variable {d : Definition} {c : Customization} {options : PreviewOptions}

theorem mount_ok {p : Previewer} (hp : Previewer.mount d c options = .ok p) :
    ∃ log, s.mount d c options =
      ({ s with
          loop := s.loop.subscribe.1
          seats := s.seats ++ [some ⟨p, s.loop.nextId⟩]
          log },
        .ok s.seats.length) := by
  simp only [mount, hp]
  exact ⟨_, rfl⟩

theorem mount_error {e : ScaleError} (he : Previewer.mount d c options = .error e) :
    ∃ log, s.mount d c options = ({ s with log }, .error (.scale e)) := by
  simp only [mount, he]
  exact ⟨_, rfl⟩

/-- A previewer that could be mounted has a seat, with the next subscription. -/
theorem seat?_of_mount {t : Stage} (h : s.mount d c options = (t, .ok i)) :
    ∃ p, Previewer.mount d c options = .ok p ∧ t.seat? i = some ⟨p, s.loop.nextId⟩ := by
  cases hp : Previewer.mount d c options with
  | error e =>
    obtain ⟨log, hs⟩ := mount_error (s := s) hp
    exact nomatch (Prod.mk.inj (h.symm.trans hs)).2
  | ok p =>
    obtain ⟨log, hs⟩ := mount_ok (s := s) hp
    obtain ⟨rfl, hi⟩ := Prod.mk.inj (h.symm.trans hs)
    obtain rfl := Except.ok.inj hi
    exact ⟨p, rfl, by simp [seat?]⟩

/-- A mount is either refused, which reports something, or it takes the next seat and the next
subscription. -/
theorem mount_cases (s : Stage) (d : Definition) (c : Customization)
    (options : PreviewOptions) :
    (∃ log, (s.mount d c options).1 = { s with log }) ∨
      ∃ p log, Previewer.mount d c options = .ok p ∧ (s.mount d c options).1 =
        { s with
          loop := s.loop.subscribe.1
          seats := s.seats ++ [some ⟨p, s.loop.nextId⟩]
          log } := by
  cases hp : Previewer.mount d c options with
  | error e =>
    obtain ⟨log, h⟩ := mount_error (s := s) hp
    exact .inl ⟨log, by rw [h]⟩
  | ok p =>
    obtain ⟨log, h⟩ := mount_ok (s := s) hp
    exact .inr ⟨p, log, rfl, by rw [h]⟩

end

private theorem wired_tick (h : s.Wired) (now : Float) : ((s.tick now).1).Wired := by
  obtain ⟨log, htick⟩ := tick_eq h now
  have hloop : ((s.tick now).1).loop = { s.loop with frameIndex := s.loop.frameIndex + 1 } := by
    rw [htick]
  have hseat {i : Nat} {seat' : Seat} (hi : ((s.tick now).1).seat? i = some seat') :
      ∃ seat, s.seat? i = some seat ∧ seat'.subscription = seat.subscription ∧
        seat'.previewer.mounted = seat.previewer.mounted := by
    rw [seat?_tick h, Option.map_eq_some_iff] at hi
    obtain ⟨seat, hi, rfl⟩ := hi
    refine ⟨seat, hi, rfl, ?_⟩
    rw [Previewer.meet_tick]
    split <;> rfl
  refine ⟨?_, ?_, ?_, fun hi => ?_, fun hi hj he => ?_, fun hi => ?_⟩
  · rw [hloop]
    exact h.idle
  · rw [hloop]
    exact h.nodup
  · rw [hloop]
    exact h.used
  · obtain ⟨seat, hi, hs, -⟩ := hseat hi
    rw [hloop, hs]
    exact h.taken hi
  · obtain ⟨a, hi, ha, -⟩ := hseat hi
    obtain ⟨b, hj, hb, -⟩ := hseat hj
    exact h.own hi hj (ha ▸ hb ▸ he)
  · obtain ⟨seat, hi, hs, hm⟩ := hseat hi
    rw [hloop, hs, hm]
    exact h.mounted hi

/-- A seat that takes a fresh subscription keeps the stage in order. -/
private theorem wired_append (h : s.Wired) {p : Previewer} (hp : p.mounted = true)
    {t : Stage} (hloop : t.loop = s.loop.subscribe.1)
    (hseats : t.seats = s.seats ++ [some ⟨p, s.loop.nextId⟩]) : t.Wired := by
  have hseat {j : Nat} {seat : Seat} (hj : t.seat? j = some seat) :
      (j = s.seats.length ∧ seat = ⟨p, s.loop.nextId⟩) ∨ s.seat? j = some seat := by
    rw [seat?_append hseats] at hj
    split at hj
    · next hjn => exact .inl ⟨hjn, (Option.some.inj hj).symm⟩
    · exact .inr hj
  -- the new subscription is above every other
  have hfresh : s.loop.nextId ∉ s.loop.subscribers := fun hm => Nat.lt_irrefl _ (h.used _ hm)
  have htaken {j : Nat} {seat : Seat} (hj : s.seat? j = some seat) :
      seat.subscription ≠ s.loop.nextId := Nat.ne_of_lt (h.taken hj)
  refine ⟨?_, ?_, fun id hid => ?_, fun hi => ?_, fun hi hj he => ?_, fun hi => ?_⟩
  all_goals rw [hloop] at *
  · exact h.idle
  · refine List.nodup_append.2 ⟨h.nodup, List.pairwise_singleton _ _, fun id hid j hj => ?_⟩
    rintro rfl
    exact hfresh (List.mem_singleton.1 hj ▸ hid)
  · rcases List.mem_append.1 hid with hid | hid
    · exact Nat.lt_succ_of_lt (h.used id hid)
    · exact List.mem_singleton.1 hid ▸ Nat.lt_succ_self _
  · rcases hseat hi with ⟨-, rfl⟩ | hi
    · exact Nat.lt_succ_self _
    · exact Nat.lt_succ_of_lt (h.taken hi)
  · rcases hseat hi with ⟨rfl, rfl⟩ | hi <;> rcases hseat hj with ⟨rfl, rfl⟩ | hj
    · rfl
    · exact absurd he.symm (htaken hj)
    · exact absurd he (htaken hi)
    · exact h.own hi hj he
  · rcases hseat hi with ⟨-, rfl⟩ | hi
    · exact iff_of_true hp (List.mem_append_right _ List.mem_cons_self)
    · refine (h.mounted hi).trans ?_
      simp [FrameLoop.subscribe, htaken hi]

private theorem wired_mount (h : s.Wired) (d : Definition) (c : Customization)
    (options : PreviewOptions) : ((s.mount d c options).1).Wired := by
  obtain ⟨log, hs⟩ | ⟨p, log, hp, hs⟩ := mount_cases s d c options
  · rw [hs]
    exact ⟨h.idle, h.nodup, h.used, h.taken, h.own, h.mounted⟩
  · obtain ⟨scale, rfl⟩ := Previewer.mount_eq hp
    rw [hs]
    exact wired_append h rfl rfl rfl

private theorem wired_load (h : s.Wired) (files : FileTree) (path : String) (c : Customization)
    (options : PreviewOptions) : ((s.load files path c options).1).Wired := by
  rw [load]
  split
  · exact h
  · exact wired_mount h _ c options

theorem command_eq (hi : s.seat? i = some seat) (c : PreviewCommand) :
    ∃ log, (s.command i c).1 =
      { s with
        loop := if c = .unmount then s.loop.cancel seat.subscription else s.loop
        log
        seats := s.seats.set i
          (some { seat with previewer := (seat.previewer.meet (.command s.clock.now c)).1 }) } := by
  rw [Previewer.meet_command]
  simp only [command, hi]
  exact ⟨_, rfl⟩

/-- A seat that keeps its subscription keeps the stage in order, if it leaves the loop when it is
unmounted. -/
private theorem wired_set (h : s.Wired) (hi : s.seat? i = some seat) {p : Previewer} {t : Stage}
    (hseats : t.seats = s.seats.set i (some { seat with previewer := p }))
    (hloop : t.loop = s.loop ∧ p.mounted = seat.previewer.mounted ∨
      t.loop = s.loop.cancel seat.subscription ∧ p.mounted = false) : t.Wired := by
  have hseat {j : Nat} {new : Seat} (hj : t.seat? j = some new) :
      ∃ old, s.seat? j = some old ∧ new.subscription = old.subscription ∧
        (j = i ∧ old = seat ∧ new.previewer = p ∨ j ≠ i ∧ new = old) := by
    rw [seat?_set hseats] at hj
    split at hj
    · next hji =>
      obtain rfl := Option.some.inj hj
      exact ⟨seat, hji.1 ▸ hi, rfl, .inl ⟨hji.1, rfl, rfl⟩⟩
    · next hji =>
      exact ⟨new, hj, rfl, .inr ⟨fun he => hji ⟨he, lt_of_seat? hi⟩, rfl⟩⟩
  have hturns : t.loop.turns = s.loop.turns ∧ t.loop.nextId = s.loop.nextId ∧
      t.loop.subscribers.Sublist s.loop.subscribers := by
    rcases hloop with ⟨hl, -⟩ | ⟨hl, -⟩ <;> rw [hl]
    · exact ⟨rfl, rfl, .refl _⟩
    · exact ⟨rfl, rfl, List.erase_sublist⟩
  obtain ⟨hturns, hnext, hsub⟩ := hturns
  refine ⟨hturns.trans h.idle, h.nodup.sublist hsub, fun id hid => ?_, fun hj => ?_,
    fun hj hk he => ?_, fun hj => ?_⟩
  · rw [hnext]
    exact h.used id (hsub.subset hid)
  · obtain ⟨old, hj, ho, -⟩ := hseat hj
    rw [hnext, ho]
    exact h.taken hj
  · obtain ⟨a, hj, ha, -⟩ := hseat hj
    obtain ⟨b, hk, hb, -⟩ := hseat hk
    exact h.own hj hk (ha ▸ hb ▸ he)
  · obtain ⟨old, hj, ho, hcase⟩ := hseat hj
    rw [ho]
    rcases hloop with ⟨hl, hm⟩ | ⟨hl, hm⟩ <;> rw [hl] <;>
      rcases hcase with ⟨-, rfl, hp⟩ | ⟨hji, hn⟩
    · rw [hp, hm]
      exact h.mounted hj
    · rw [hn]
      exact h.mounted hj
    · rw [hp, hm, FrameLoop.cancel, h.nodup.mem_erase_iff]
      simp
    · have hne : old.subscription ≠ seat.subscription := fun he => hji (h.own hj hi he)
      rw [hn, FrameLoop.cancel, h.nodup.mem_erase_iff]
      exact (h.mounted hj).trans ⟨fun hm => ⟨hne, hm⟩, fun hm => hm.2⟩

private theorem wired_command (h : s.Wired) (i : Nat) (c : PreviewCommand) :
    ((s.command i c).1).Wired := by
  cases hi : s.seat? i with
  | none =>
    simp only [command, hi]
    exact h
  | some seat =>
    obtain ⟨log, hs⟩ := command_eq hi c
    have hm := Previewer.mounted_command seat.previewer s.clock.now c
    rw [hs]
    refine wired_set h hi rfl ?_
    by_cases hc : c = .unmount
    · exact .inr ⟨if_pos hc, hm.trans (if_pos hc)⟩
    · exact .inl ⟨if_neg hc, hm.trans (if_neg hc)⟩

private theorem wired_put_none (h : s.Wired) (i : Nat) : (s.put i none).Wired := by
  have hseat {j : Nat} {seat : Seat} (hj : (s.put i none).seat? j = some seat) :
      s.seat? j = some seat := by
    rw [seat?_set rfl] at hj
    split at hj
    · exact nomatch hj
    · exact hj
  exact ⟨h.idle, h.nodup, h.used, fun hj => h.taken (hseat hj),
    fun hj hk => h.own (hseat hj) (hseat hk), fun hj => h.mounted (hseat hj)⟩

theorem wired_act (h : s.Wired) (a : StageAction) : (s.act a).Wired := by
  cases a with
  | tick now => exact wired_tick h now
  | clock c => exact ⟨h.idle, h.nodup, h.used, h.taken, h.own, h.mounted⟩
  | mount d c options => exact wired_mount h d c options
  | load files path c options => exact wired_load h files path c options
  | command i c => exact wired_command h i c
  | drop i => exact wired_put_none (wired_command h i .unmount) i

theorem wired_run (h : s.Wired) (actions : List StageAction) : (s.run actions).Wired := by
  induction actions generalizing s with
  | nil => exact h
  | cons a rest ih => exact ih (wired_act h a)

/-- A new seat leaves the others as they are. -/
private theorem seat?_mount (hi : s.seat? i = some seat) (d : Definition) (c : Customization)
    (options : PreviewOptions) : ((s.mount d c options).1).seat? i = some seat := by
  obtain ⟨log, hs⟩ | ⟨p, log, -, hs⟩ := mount_cases s d c options
  · rw [hs]
    exact hi
  · rw [hs, seat?_append rfl, if_neg (Nat.ne_of_lt (lt_of_seat? hi))]
    exact hi

private theorem seat?_command_of_ne {j : Nat} (hji : j ≠ i) (c : PreviewCommand) :
    ((s.command j c).1).seat? i = s.seat? i := by
  cases hj : s.seat? j with
  | none => simp only [command, hj]
  | some seat =>
    obtain ⟨log, hs⟩ := command_eq hj c
    rw [hs, seat?_set rfl, if_neg fun h => hji h.1.symm]

/-- An action means nothing more to a previewer than its own event. -/
theorem seat?_act (h : s.Wired) (hi : s.seat? i = some seat) {a : StageAction}
    (ha : a ≠ .drop i) : (s.act a).seat? i =
      some { seat with previewer := seat.previewer.after (s.eventOf? i a).toList } := by
  cases a with
  | tick now =>
    rw [act, seat?_tick h, hi]
    rfl
  | clock c => exact hi
  | mount d c options => exact seat?_mount hi d c options
  | load files path c options =>
    rw [act, load]
    split
    · exact hi
    · exact seat?_mount hi _ c options
  | command j c =>
    by_cases hji : j = i
    · subst hji
      obtain ⟨log, hs⟩ := command_eq hi c
      rw [act, hs, seat?_set rfl, if_pos ⟨rfl, lt_of_seat? hi⟩, eventOf?, if_pos rfl]
      rfl
    · rw [act, seat?_command_of_ne hji, hi, eventOf?, if_neg hji]
      rfl
  | drop j =>
    have hji : j ≠ i := fun he => ha (he ▸ rfl)
    rw [act, drop, seat?_set rfl, if_neg fun h => hji h.1.symm, seat?_command_of_ne hji]
    exact hi

/-- In a run a previewer meets its own events and nothing else. -/
theorem seat?_run (h : s.Wired) (hi : s.seat? i = some seat) {actions : List StageAction}
    (ha : .drop i ∉ actions) : (s.run actions).seat? i =
      some { seat with previewer := seat.previewer.after (s.eventsOf i actions) } := by
  induction actions generalizing s seat with
  | nil => exact hi
  | cons a rest ih =>
    rw [List.mem_cons, not_or] at ha
    have hnext := ih (wired_act h a) (seat?_act h hi (Ne.symm ha.1)) ha.2
    rw [eventsOf, Previewer.after, List.foldl_append]
    exact hnext

end Stage

end MotionTemplate

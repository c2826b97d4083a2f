import MotionTemplate.CommandLine.Player

/-! The spacing of ticks. Whenever it is asked, a pacer lets a tick through exactly when an interval
has passed since the last one, and the wait that it names ends at the first moment when it would. -/
namespace MotionTemplate

namespace Pacer

/-- The next tick is due at a time that a word can hold. -/
def HasRoom (p : Pacer) : Prop := ∀ last ∈ p.last, last.toNat + p.interval.toNat < UInt64.size

/-- An interval has passed since the last tick, or there was none. -/
def IsDue (p : Pacer) (now : UInt64) : Prop :=
  ∀ last ∈ p.last, last.toNat + p.interval.toNat ≤ now.toNat

/-- A pacer after it was asked at some times, one after the other. -/
def after (p : Pacer) (times : List UInt64) : Pacer :=
  times.foldl (fun p now => (p.shouldTick now).1) p

/-- Those times at which a pacer lets a tick through, in the order in which it is asked. -/
def ticks (p : Pacer) : List UInt64 → List UInt64
  | [] => []
  | now :: rest =>
    let later := (p.shouldTick now).1.ticks rest
    if (p.shouldTick now).2 then now :: later else later

/-- Whenever a pacer is asked, its next tick is due at a time that a word can hold. -/
def KeepsRoom (p : Pacer) : List UInt64 → Prop
  | [] => True
  | now :: rest => p.HasRoom ∧ (p.shouldTick now).1.KeepsRoom rest

instance (p : Pacer) : Decidable p.HasRoom :=
  decidable_of_iff (p.last.all fun last => last.toNat + p.interval.toNat < UInt64.size) (by
    rw [HasRoom]
    cases p.last <;> simp)

instance decidableKeepsRoom : (p : Pacer) → (times : List UInt64) → Decidable (p.KeepsRoom times)
  | _, [] => isTrue trivial
  | p, now :: rest =>
    have := decidableKeepsRoom (p.shouldTick now).1 rest
    inferInstanceAs (Decidable (p.HasRoom ∧ (p.shouldTick now).1.KeepsRoom rest))

variable {p : Pacer} {now last : UInt64}

theorem isDue_of_none (hl : p.last = none) : p.IsDue now := by
  intro last hmem
  rw [hl] at hmem
  cases hmem

theorem isDue_iff_of_some (hl : p.last = some last) :
    p.IsDue now ↔ last.toNat + p.interval.toNat ≤ now.toNat := by
  rw [IsDue, hl]
  exact ⟨fun h => h last rfl, fun hle other hmem => Option.some.inj hmem ▸ hle⟩

/-- With room the sum of the last tick and the interval is no other in a word. -/
private theorem toNat_due (h : p.HasRoom) (hl : p.last = some last) :
    (last + p.interval).toNat = last.toNat + p.interval.toNat := by
  rw [UInt64.toNat_add]
  exact Nat.mod_eq_of_lt (h last hl)

theorem shouldTick_of_isDue (h : p.HasRoom) (hd : p.IsDue now) :
    p.shouldTick now = ({ p with last := some now }, true) := by
  rw [shouldTick]
  split
  · rfl
  · next last hl =>
    apply if_pos
    rw [UInt64.le_iff_toNat_le, toNat_due h hl, ← isDue_iff_of_some hl]
    exact hd

theorem shouldTick_of_not_isDue (h : p.HasRoom) (hd : ¬ p.IsDue now) :
    p.shouldTick now = (p, false) := by
  rw [shouldTick]
  split
  · next hl => exact absurd (isDue_of_none hl) hd
  · next last hl =>
    apply if_neg
    rw [UInt64.le_iff_toNat_le, toNat_due h hl, ← isDue_iff_of_some hl]
    exact hd

theorem shouldTick_iff_isDue (h : p.HasRoom) : (p.shouldTick now).2 = true ↔ p.IsDue now := by
  by_cases hd : p.IsDue now
  · rw [shouldTick_of_isDue h hd]
    exact iff_of_true rfl hd
  · rw [shouldTick_of_not_isDue h hd]
    exact iff_of_false Bool.false_ne_true hd

/-- The wait ends when the next tick is due, or at once when it is overdue. -/
private theorem toNat_untilNext (h : p.HasRoom) (hl : p.last = some last) :
    (p.untilNext now).toNat = last.toNat + p.interval.toNat - now.toNat := by
  simp only [untilNext, hl]
  split
  · next hle => rw [UInt64.toNat_sub_of_le _ _ hle, toNat_due h hl]
  · next hlt =>
    rw [UInt64.not_le, UInt64.lt_iff_toNat_lt, toNat_due h hl] at hlt
    exact (Nat.sub_eq_zero_of_le (Nat.le_of_lt hlt)).symm

/-- After a wait that no word is too short for, the tick is due exactly if the wait was long
enough. -/
private theorem isDue_add_iff (h : p.HasRoom) {wait : UInt64}
    (hw : now.toNat + wait.toNat < UInt64.size) :
    p.IsDue (now + wait) ↔ p.untilNext now ≤ wait := by
  have hsum : (now + wait).toNat = now.toNat + wait.toNat := by
    rw [UInt64.toNat_add]
    exact Nat.mod_eq_of_lt hw
  cases hl : p.last with
  | none =>
    have hzero : p.untilNext now = 0 := by simp only [untilNext, hl]
    rw [hzero]
    exact iff_of_true (isDue_of_none hl) UInt64.zero_le
  | some last =>
    rw [isDue_iff_of_some hl, UInt64.le_iff_toNat_le, toNat_untilNext h hl, hsum]
    omega

theorem untilNext_eq_zero_iff (h : p.HasRoom) : p.untilNext now = 0 ↔ p.IsDue now := by
  have hzero : now.toNat + (0 : UInt64).toNat < UInt64.size := now.toNat_lt
  have hiff := isDue_add_iff h hzero
  rw [UInt64.add_zero] at hiff
  rw [hiff]
  exact ⟨fun heq => heq ▸ UInt64.le_refl _, fun hle => UInt64.le_antisymm hle UInt64.zero_le⟩

/-- The end of the wait is a time that a word can hold. -/
theorem add_untilNext_lt (h : p.HasRoom) (now : UInt64) :
    now.toNat + (p.untilNext now).toNat < UInt64.size := by
  have hnow : now.toNat < UInt64.size := now.toNat_lt
  cases hl : p.last with
  | none =>
    simp only [untilNext, hl]
    exact hnow
  | some last =>
    have hroom := h last hl
    rw [toNat_untilNext h hl]
    omega

theorem shouldTick_iff_untilNext (h : p.HasRoom) :
    (p.shouldTick now).2 = true ↔ p.untilNext now = 0 := by
  rw [shouldTick_iff_isDue h, untilNext_eq_zero_iff h]

/-- The wait is long enough. -/
theorem shouldTick_add_untilNext (h : p.HasRoom) (now : UInt64) :
    (p.shouldTick (now + p.untilNext now)).2 = true := by
  rw [shouldTick_iff_isDue h, isDue_add_iff h (add_untilNext_lt h now)]
  exact UInt64.le_refl _

/-- A shorter wait is not. -/
theorem shouldTick_add_of_lt (h : p.HasRoom) {wait : UInt64} (hw : wait < p.untilNext now) :
    (p.shouldTick (now + wait)).2 = false := by
  have hend := add_untilNext_lt h now
  have hlt := UInt64.lt_iff_toNat_lt.1 hw
  have hfits : now.toNat + wait.toNat < UInt64.size := by omega
  rw [← Bool.not_eq_true, shouldTick_iff_isDue h, isDue_add_iff h hfits]
  exact UInt64.not_le.2 hw

/-- Being asked changes nothing but the last tick. -/
private theorem shouldTick_fst (p : Pacer) (now : UInt64) :
    (p.shouldTick now).1 = if (p.shouldTick now).2 then { p with last := some now } else p := by
  rw [shouldTick]
  split
  · rfl
  · split <;> rfl

private theorem interval_shouldTick (p : Pacer) (now : UInt64) :
    (p.shouldTick now).1.interval = p.interval := by
  rw [shouldTick_fst]
  split <;> rfl

private theorem interval_after (p : Pacer) (times : List UInt64) :
    (p.after times).interval = p.interval := by
  induction times generalizing p with
  | nil => rfl
  | cons now rest ih => exact (ih (p.shouldTick now).1).trans (interval_shouldTick p now)

/-- A pacer remembers the last tick of a run. -/
private theorem last_after (p : Pacer) (times : List UInt64) :
    (p.after times).last = (p.ticks times).getLast?.or p.last := by
  induction times generalizing p with
  | nil => rfl
  | cons now rest ih =>
    have hrest := ih (p.shouldTick now).1
    rw [shouldTick_fst] at hrest
    change ((p.shouldTick now).1.after rest).last = _
    rw [ticks, shouldTick_fst]
    split
    · next hd =>
      rw [if_pos hd] at hrest
      rw [hrest, List.getLast?_cons]
      cases (ticks _ rest).getLast? <;> rfl
    · next hd =>
      rw [if_neg hd] at hrest
      exact hrest

/-- The ticks of a run lie at least an interval after the last one before it, and as far after each
other. -/
private theorem ticks_spaced {times : List UInt64} (h : p.KeepsRoom times) :
    (∀ last ∈ p.last, ∀ tick ∈ p.ticks times,
      last.toNat + p.interval.toNat ≤ tick.toNat) ∧
    (p.ticks times).Pairwise fun a b => a.toNat + p.interval.toNat ≤ b.toNat := by
  induction times generalizing p with
  | nil => exact ⟨fun _ _ _ hmem => absurd hmem List.not_mem_nil, .nil⟩
  | cons now rest ih =>
    obtain ⟨hroom, hrest⟩ := h
    obtain ⟨hafter, hpairs⟩ := ih hrest
    rw [ticks]
    by_cases hd : p.IsDue now
    · rw [shouldTick_of_isDue hroom hd] at hafter hpairs ⊢
      have hlater : ∀ tick ∈ ({ p with last := some now } : Pacer).ticks rest,
          now.toNat + p.interval.toNat ≤ tick.toNat := hafter now rfl
      refine ⟨fun last hl tick hmem => ?_, List.pairwise_cons.2 ⟨hlater, hpairs⟩⟩
      have hnow := hd last hl
      rcases List.mem_cons.1 hmem with rfl | hmem
      · exact hnow
      · have htick := hlater tick hmem
        omega
    · rw [shouldTick_of_not_isDue hroom hd] at hafter hpairs ⊢
      exact ⟨hafter, hpairs⟩

/-- So many ticks further on, as many intervals have passed. -/
private theorem span_of_spaced {ticks : List UInt64} {interval : Nat}
    (h : ticks.Pairwise fun a b => a.toNat + interval ≤ b.toNat) {i k : Nat} {first : UInt64}
    (hfirst : ticks[i]? = some first) (hlast : ticks[i + k]? = some last) :
    first.toNat + k * interval ≤ last.toNat := by
  induction k generalizing last with
  | zero =>
    obtain rfl : first = last := Option.some.inj (hfirst.symm.trans hlast)
    omega
  | succ k ih =>
    obtain ⟨hlt, heq⟩ := List.getElem?_eq_some_iff.1 hlast
    have hprev : i + k < ticks.length := by omega
    have hstep : ticks[i + k].toNat + interval ≤ last.toNat := by
      rw [← heq]
      exact List.pairwise_iff_getElem.1 h _ _ hprev hlt (by omega)
    have hspan := ih (List.getElem?_eq_getElem hprev)
    rw [Nat.succ_mul]
    omega

/-- However a pacer of some rate is asked, its ticks lie at least an interval apart, so that any
number of them take as many intervals as lie between them. At every point of the run a tick is let
through exactly when an interval has passed since the last one, and this is when the wait for it is
zero. The wait is long enough, and no shorter one is. -/
theorem ticks_keep_interval (rate : Nat) {times : List UInt64}
    (h : (ofRate rate).KeepsRoom times) :
    let interval := (ofRate rate).interval.toNat
    let ticks := (ofRate rate).ticks times
    let p := (ofRate rate).after times
    (ticks.Pairwise fun a b => a.toNat + interval ≤ b.toNat) ∧
      (∀ (i k : Nat) (first last : UInt64), ticks[i]? = some first → ticks[i + k]? = some last →
        first.toNat + k * interval ≤ last.toNat) ∧
      (p.HasRoom → ∀ now : UInt64,
        ((p.shouldTick now).2 = true ↔
          ∀ last ∈ ticks.getLast?, last.toNat + interval ≤ now.toNat) ∧
        ((p.shouldTick now).2 = true ↔ p.untilNext now = 0) ∧
        now.toNat + (p.untilNext now).toNat < UInt64.size ∧
        (p.shouldTick (now + p.untilNext now)).2 = true ∧
        ∀ wait < p.untilNext now, (p.shouldTick (now + wait)).2 = false) := by
  intro interval ticks p
  obtain ⟨-, hspaced⟩ := ticks_spaced h
  refine ⟨hspaced, fun i k first last => span_of_spaced hspaced, fun hroom now => ?_⟩
  have hlast : p.last = ticks.getLast? := (last_after _ times).trans Option.or_none
  have hinterval : p.interval.toNat = interval := congrArg _ (interval_after _ times)
  refine ⟨?_, shouldTick_iff_untilNext hroom, add_untilNext_lt hroom now,
    shouldTick_add_untilNext hroom now, fun wait hwait => shouldTick_add_of_lt hroom hwait⟩
  rw [shouldTick_iff_isDue hroom, IsDue, hlast, hinterval]

/-- A pacer of sixty ticks a second. It refuses a time too soon and one from before its last tick,
its third tick comes two intervals after the first, and then it waits for the fourth. -/
theorem sixty_ticks_keep_interval :
    let times : List UInt64 := [0, 1000000, 17000000, 5000000, 33666666]
    let p := (ofRate 60).after times
    (ofRate 60).KeepsRoom times ∧ (ofRate 60).ticks times = [0, 17000000, 33666666] ∧
      (0 : UInt64).toNat + 2 * 16666666 ≤ (33666666 : UInt64).toNat ∧
      p.HasRoom ∧ p.untilNext 40000000 = 10333332 ∧
      (p.shouldTick (40000000 + p.untilNext 40000000)).2 = true := by
  intro times p
  have hkeeps : (ofRate 60).KeepsRoom times := by decide
  have hroom : p.HasRoom := by decide
  obtain ⟨-, hspan, hpoint⟩ := ticks_keep_interval 60 hkeeps
  obtain ⟨-, -, -, hwait, -⟩ := hpoint hroom 40000000
  exact ⟨hkeeps, by decide, hspan 0 2 0 33666666 (by decide) (by decide), hroom, by decide, hwait⟩

end Pacer

namespace CommandLine.Player

open Pacer

variable {p : Player} {now nanos : UInt64}

/-- A player waits as long as its pacer names, and stays as it is meanwhile. -/
private theorem step_eq_wait (h : (p.step now).2 = .wait nanos) :
    p.step now = (p, .wait nanos) ∧ (p.pacer.shouldTick now).2 = false ∧
      p.pacer.untilNext now = nanos := by
  rw [step] at h ⊢
  split at h
  · exact nomatch h
  · next hlength =>
    rw [if_neg hlength]
    split at h
    · next heq =>
      obtain rfl := PlayStep.wait.inj h
      exact ⟨rfl, by rw [heq], rfl⟩
    · -- a step that ticks shows something or is the last one
      dsimp only at h
      split at h <;> exact nomatch h

/-- Playing never waits for nothing, and never twice for one tick: after a wait the loop ticks,
unless its time is up. -/
theorem step_of_wait (hroom : p.pacer.HasRoom) (h : (p.step now).2 = .wait nanos) :
    nanos ≠ 0 ∧ ∀ more : UInt64, ((p.step now).1.step (now + nanos)).2 ≠ .wait more := by
  obtain ⟨heq, hrefused, rfl⟩ := step_eq_wait h
  refine ⟨fun hzero => ?_, fun more hmore => ?_⟩
  · have hdue := (shouldTick_iff_untilNext hroom).2 hzero
    exact Bool.false_ne_true (hrefused.symm.trans hdue)
  · rw [heq] at hmore
    obtain ⟨-, hagain, -⟩ := step_eq_wait hmore
    have hdue := shouldTick_add_untilNext hroom now
    exact Bool.false_ne_true (hagain.symm.trans hdue)

end CommandLine.Player

end MotionTemplate

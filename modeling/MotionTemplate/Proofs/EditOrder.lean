import MotionTemplate.Proofs.DurationChange
import MotionTemplate.Proofs.KeyMap
import MotionTemplate.Proofs.UsableDuration

/-! The order of edits. Edits of different fields that are made at one time give the same
customization and composition in any order. Playback takes notice of how often a duration is set, so
that it may be different where the first or the last of the edits is that of the duration. -/
namespace MotionTemplate

/-- What an edit changes of a customization. -/
inductive EditedField where
  | theme
  | duration
  | placeholder (id : String)
deriving DecidableEq

namespace PreviewCommand

/-- The field that a command changes. Commands that change none, or all of them, have none. -/
def field? : PreviewCommand → Option EditedField
  | .setTheme _ => some .theme
  | .setDuration _ => some .duration
  | .setPlaceholder id _ => some (.placeholder id)
  | _ => none

/-- An edit that is not one of the duration. -/
def KeepsDuration (e : PreviewCommand) : Prop := e.field?.isSome ∧ e.field? ≠ some .duration

theorem setDuration_of_field {e : PreviewCommand} (h : e.field? = some .duration) :
    ∃ secs, e = .setDuration secs := by
  cases e with
  | setDuration secs => exact ⟨secs, rfl⟩
  | _ => exact nomatch h

end PreviewCommand

open PreviewCommand

/-- Edits of different fields. -/
structure Independent (edits : List PreviewCommand) : Prop where
  edit : ∀ e ∈ edits, e.field?.isSome
  distinct : (edits.map field?).Nodup

/-- The first of some edits is that of the duration. -/
def StartsOnDuration (edits : List PreviewCommand) : Prop :=
  ∃ secs, edits.head? = some (.setDuration secs)

/-- The last of some edits is that of the duration. -/
def EndsOnDuration (edits : List PreviewCommand) : Prop :=
  ∃ secs, edits.getLast? = some (.setDuration secs)

namespace Independent

variable {edits edits' before after : List PreviewCommand} {secs : Float}

theorem perm (h : Independent edits) (hperm : edits'.Perm edits) : Independent edits' where
  edit e he := h.edit e (hperm.mem_iff.1 he)
  distinct := (hperm.map field?).nodup_iff.2 h.distinct

private theorem keepsDuration (h : Independent edits) (hno : ∀ secs, .setDuration secs ∉ edits) :
    ∀ e ∈ edits, e.KeepsDuration := by
  refine fun e he => ⟨h.edit e he, fun hfield => ?_⟩
  obtain ⟨secs, rfl⟩ := setDuration_of_field hfield
  exact hno secs he

/-- Around an edit of the duration there are no more of them. -/
private theorem keepsDuration_around (h : Independent (before ++ .setDuration secs :: after)) :
    (∀ e ∈ before, e.KeepsDuration) ∧ ∀ e ∈ after, e.KeepsDuration := by
  have hdistinct := h.distinct
  rw [List.map_append, List.map_cons, List.nodup_middle, List.nodup_cons, ← List.map_append]
    at hdistinct
  have hkeeps : ∀ e ∈ before ++ after, e.KeepsDuration := fun e he =>
    ⟨h.edit e (by simp only [List.mem_append, List.mem_cons] at he ⊢; tauto),
      fun hfield => hdistinct.1 (List.mem_map.2 ⟨e, he, hfield⟩)⟩
  exact List.forall_mem_append.1 hkeeps

private theorem startsOnDuration_iff (h : Independent (before ++ .setDuration secs :: after)) :
    StartsOnDuration (before ++ .setDuration secs :: after) ↔ before.length = 0 := by
  cases before with
  | nil => exact iff_of_true ⟨secs, rfl⟩ rfl
  | cons e rest =>
    refine iff_of_false ?_ (Nat.succ_ne_zero _)
    rintro ⟨other, hhead⟩
    obtain rfl : e = .setDuration other := Option.some.inj hhead
    exact (h.keepsDuration_around.1 _ List.mem_cons_self).2 rfl

private theorem endsOnDuration_iff (h : Independent (before ++ .setDuration secs :: after)) :
    EndsOnDuration (before ++ .setDuration secs :: after) ↔ after.length = 0 := by
  rcases after.eq_nil_or_concat' with rfl | ⟨rest, e, rfl⟩
  · exact iff_of_true ⟨secs, List.getLast?_concat⟩ rfl
  · refine iff_of_false ?_ (by simp)
    rintro ⟨other, hlast⟩
    rw [← List.cons_append, ← List.append_assoc, List.getLast?_concat] at hlast
    obtain rfl : e = .setDuration other := Option.some.inj hlast
    exact (h.keepsDuration_around.2 (.setDuration other) (by simp)).2 rfl

end Independent

namespace Customization

def edit (c : Customization) (e : PreviewCommand) : Customization :=
  (Previewer.edited? c e).getD c

variable {c c' : Customization} {e e' : PreviewCommand}

/-- Edits of two fields may change places. -/
private theorem edit_comm (he : e.field?.isSome) (he' : e'.field?.isSome)
    (h : e.field? ≠ e'.field?) : (c.edit e).edit e' = (c.edit e').edit e := by
  cases e with
  | setTheme id =>
    cases e' with
    | setTheme => exact absurd rfl h
    | setDuration | setPlaceholder => rfl
    | _ => exact nomatch he'
  | setDuration secs =>
    cases e' with
    | setDuration => exact absurd rfl h
    | setTheme | setPlaceholder => rfl
    | _ => exact nomatch he'
  | setPlaceholder id value =>
    cases e' with
    | setTheme | setDuration => rfl
    | setPlaceholder id' value' =>
      have hid : id ≠ id' := fun hid => h (congrArg (some ∘ EditedField.placeholder) hid)
      change { c with values := (c.values.insert id value).insert id' value' } =
        { c with values := (c.values.insert id' value').insert id value }
      rw [KeyMap.insert_comm hid]
    | _ => exact nomatch he'
  | _ => exact nomatch he

/-- Independent edits give the same customization in any order. -/
theorem foldl_edit_perm {edits edits' : List PreviewCommand} (h : Independent edits)
    (hperm : edits'.Perm edits) (c : Customization) : edits'.foldl edit c = edits.foldl edit c := by
  refine (hperm.symm.foldl_eq' (fun e he e' he' c => ?_) c).symm
  by_cases hsame : e = e'
  · rw [hsame]
  · refine edit_comm (h.edit e he) (h.edit e' he') fun hfield => hsame ?_
    exact List.inj_on_of_nodup_map h.distinct he he' hfield

private theorem duration_edit (h : e.KeepsDuration) : (c.edit e).duration = c.duration := by
  cases e with
  | setTheme | setPlaceholder => rfl
  | setDuration => exact absurd rfl h.2
  | _ => exact nomatch h.1

private theorem effectiveDuration_congr (h : c'.duration = c.duration) (d : Definition)
    (bounds : DurationBounds) : c'.effectiveDuration d bounds = c.effectiveDuration d bounds := by
  simp only [effectiveDuration, h]

/-- The durations that some edits give a composition, one after the other. -/
def durations (d : Definition) (bounds : DurationBounds) (c : Customization) :
    List PreviewCommand → List Float
  | [] => []
  | e :: rest => (c.edit e).effectiveDuration d bounds :: durations d bounds (c.edit e) rest

variable (d : Definition) (bounds : DurationBounds)

private theorem durations_of_keepsDuration (c : Customization) {edits : List PreviewCommand}
    (h : ∀ e ∈ edits, e.KeepsDuration) :
    durations d bounds c edits = List.replicate edits.length (c.effectiveDuration d bounds) ∧
      (edits.foldl edit c).duration = c.duration := by
  induction edits generalizing c with
  | nil => exact ⟨rfl, rfl⟩
  | cons e rest ih =>
    obtain ⟨he, hrest⟩ := List.forall_mem_cons.1 h
    have hduration : (c.edit e).duration = c.duration := duration_edit he
    obtain ⟨hdurations, hfold⟩ := ih (c.edit e) hrest
    refine ⟨?_, hfold.trans hduration⟩
    rw [durations, hdurations, effectiveDuration_congr hduration, List.length_cons,
      List.replicate_succ]

private theorem durations_append (c : Customization) (edits more : List PreviewCommand) :
    durations d bounds c (edits ++ more) =
      durations d bounds c edits ++ durations d bounds (edits.foldl edit c) more := by
  induction edits generalizing c with
  | nil => rfl
  | cons e rest ih =>
    rw [List.cons_append, durations, durations, ih, List.foldl_cons, List.cons_append]

/-- Around an edit of the duration the others keep the one before it and the one after it. -/
private theorem durations_around (c : Customization) {before after : List PreviewCommand}
    {secs : Float}
    (hbefore : ∀ e ∈ before, e.KeepsDuration) (hafter : ∀ e ∈ after, e.KeepsDuration) :
    durations d bounds c (before ++ .setDuration secs :: after) =
      List.replicate before.length (c.effectiveDuration d bounds) ++
        List.replicate (after.length + 1)
          (((before ++ .setDuration secs :: after).foldl edit c).effectiveDuration d bounds) := by
  let changed := (before.foldl edit c).edit (.setDuration secs)
  obtain ⟨hfirst, -⟩ := durations_of_keepsDuration d bounds c hbefore
  obtain ⟨hrest, hkept⟩ := durations_of_keepsDuration d bounds changed hafter
  have hfold : (before ++ .setDuration secs :: after).foldl edit c = after.foldl edit changed :=
    List.foldl_append
  have hlast : durations d bounds (before.foldl edit c) (.setDuration secs :: after) =
      changed.effectiveDuration d bounds :: durations d bounds changed after := rfl
  rw [durations_append, hfirst, hlast, hrest, hfold, effectiveDuration_congr hkept,
    List.replicate_succ]

end Customization

namespace Previewer
open Customization (durations durations_of_keepsDuration durations_around)

variable {p : Previewer} {edits : List PreviewCommand}

theorem bounded_after (h : p.playhead.Bounded) (events : List PreviewEvent) :
    (p.after events).playhead.Bounded := by
  induction events generalizing p with
  | nil => exact h
  | cons e rest ih =>
    refine ih ?_
    obtain heq | ⟨action, heq⟩ := playhead_meet p e
    · rwa [heq]
    · rw [heq]
      exact h.act action

private theorem meet_edit {e : PreviewCommand} (he : e.field?.isSome) (p : Previewer)
    (now : Float) :
    (p.meet (.command now e)).1 = p.customize now (p.customization.edit e) := by
  cases e with
  | setTheme | setDuration | setPlaceholder => rfl
  | _ => exact nomatch he

/-- Edits leave the size alone and hand the playhead the duration of each composition. -/
private theorem after_edits (h : ∀ e ∈ edits, e.field?.isSome) (p : Previewer) (now : Float) :
    (p.after (edits.map (.command now))).scale = p.scale ∧
      (p.after (edits.map (.command now))).playhead = p.playhead.setDurations now
        (durations p.definition p.options.bounds p.customization edits) := by
  induction edits generalizing p with
  | nil => exact ⟨rfl, rfl⟩
  | cons e rest ih =>
    obtain ⟨he, hrest⟩ := List.forall_mem_cons.1 h
    have hcons : p.after ((e :: rest).map (.command now)) =
        (p.customize now (p.customization.edit e)).after (rest.map (.command now)) := by
      rw [← meet_edit he]
      rfl
    rw [hcons]
    exact ih hrest (p.customize now (p.customization.edit e))

private theorem customization_after_edits (p : Previewer) (now : Float)
    (edits : List PreviewCommand) :
    (p.after (edits.map (.command now))).customization =
      edits.foldl Customization.edit p.customization := by
  rw [after_customization, List.foldl_map]
  rfl

/-- A composition that is fresh has the duration of its customization. -/
private theorem Fresh.duration (h : p.Fresh) :
    p.composition.duration = p.customization.effectiveDuration p.definition p.options.bounds := by
  rw [h]
  rfl

private theorem Fresh.composition_after_edits (h : p.Fresh) (now : Float)
    (edits : List PreviewCommand) :
    (p.after (edits.map (.command now))).composition = Composition.ofDefinition p.definition
      (edits.foldl Customization.edit p.customization) p.options.bounds := by
  obtain ⟨hd, ho⟩ := after_fixed p (edits.map (.command now))
  have hfresh : (p.after (edits.map (.command now))).Fresh := fresh_after h _
  rw [hfresh, customization_after_edits, hd, ho]

private theorem Fresh.duration_after_edits (h : p.Fresh) (now : Float)
    (edits : List PreviewCommand) :
    (p.after (edits.map (.command now))).composition.duration =
      (edits.foldl Customization.edit p.customization).effectiveDuration p.definition
        p.options.bounds := by
  rw [h.composition_after_edits]
  rfl

/-- The playhead after edits in two orders, one of which is that of the duration. -/
private theorem playback_edits_iff (hb : p.playhead.Bounded) (ht : p.Timed) (hf : p.Fresh)
    (now : Float) {before after before' after' : List PreviewCommand} {secs secs' : Float}
    (hind : Independent (before ++ .setDuration secs :: after))
    (hperm : (before' ++ .setDuration secs' :: after').Perm
      (before ++ .setDuration secs :: after)) :
    let edits := before ++ .setDuration secs :: after
    let edits' := before' ++ .setDuration secs' :: after'
    let q := p.after (edits.map (.command now))
    let q' := p.after (edits'.map (.command now))
    q'.playhead.playback = q.playhead.playback ↔
      (p.playhead.CutOff q.composition.duration now →
        (EndsOnDuration edits' ↔ EndsOnDuration edits)) ∧
      (p.playhead.LeftBehind p.composition.duration q.composition.duration now →
        (StartsOnDuration edits' ↔ StartsOnDuration edits)) := by
  intro edits edits' q q'
  have hind' : Independent edits' := hind.perm hperm
  obtain ⟨hbefore, hafter⟩ := hind.keepsDuration_around
  obtain ⟨hbefore', hafter'⟩ := hind'.keepsDuration_around
  obtain ⟨-, hq⟩ := after_edits hind.edit p now
  obtain ⟨-, hq'⟩ := after_edits hind'.edit p now
  have hfold := Customization.foldl_edit_perm hind hperm p.customization
  rw [hind'.endsOnDuration_iff, hind.endsOnDuration_iff, hind'.startsOnDuration_iff,
    hind.startsOnDuration_iff, hf.duration_after_edits, hq, hq',
    durations_around _ _ _ hbefore hafter, durations_around _ _ _ hbefore' hafter', hfold,
    ← hf.duration]
  exact Playhead.playback_setDurations_iff hb (fun hu => ht.follows hu) _ _ _ _

/-- Without an edit of the duration the order of the edits shows nowhere. -/
private theorem playback_edits_iff_of_keepsDuration {edits' : List PreviewCommand}
    (hno : ∀ secs, .setDuration secs ∉ edits) (hind : Independent edits)
    (hperm : edits'.Perm edits) (p : Previewer) (now : Float) :
    let q := p.after (edits.map (.command now))
    let q' := p.after (edits'.map (.command now))
    q'.playhead = q.playhead ∧ (EndsOnDuration edits' ↔ EndsOnDuration edits) ∧
      (StartsOnDuration edits' ↔ StartsOnDuration edits) := by
  intro q q'
  have hind' : Independent edits' := hind.perm hperm
  have hno' : ∀ secs, .setDuration secs ∉ edits' := fun secs => mt hperm.mem_iff.1 (hno secs)
  obtain ⟨-, hq⟩ := after_edits hind.edit p now
  obtain ⟨-, hq'⟩ := after_edits hind'.edit p now
  obtain ⟨hdurations, -⟩ := durations_of_keepsDuration p.definition p.options.bounds
    p.customization (hind.keepsDuration hno)
  obtain ⟨hdurations', -⟩ := durations_of_keepsDuration p.definition p.options.bounds
    p.customization (hind'.keepsDuration hno')
  refine ⟨?_, iff_of_false ?_ ?_, iff_of_false ?_ ?_⟩
  · rw [hq, hq', hdurations, hdurations', hperm.length_eq]
  · exact fun ⟨secs, h⟩ => hno' secs (List.mem_of_getLast? h)
  · exact fun ⟨secs, h⟩ => hno secs (List.mem_of_getLast? h)
  · exact fun ⟨secs, h⟩ => hno' secs (List.mem_of_head? h)
  · exact fun ⟨secs, h⟩ => hno secs (List.mem_of_head? h)

/-- Independent edits at one time give a previewer the same customization and the same composition
in any order. What is seen of the playback is the same exactly unless the new duration cuts off the
time that is playing and only one of the orders ends on it, or it is not usable and only one of them
starts on it, before another edit has brought the time up to date. Where it is the same, so is the
frame. -/
theorem edit_order_iff {d : Definition} {c : Customization} {options : PreviewOptions}
    {p₀ : Previewer} (h : mount d c options = .ok p₀) (events : List PreviewEvent) (now : Float)
    {edits edits' : List PreviewCommand} (hind : Independent edits) (hperm : edits'.Perm edits) :
    let p := p₀.after events
    let q := p.after (edits.map (.command now))
    let q' := p.after (edits'.map (.command now))
    let first := p.composition.duration
    let secs := q.composition.duration
    q'.customization = q.customization ∧ q'.composition = q.composition ∧
      (q'.playhead.playback = q.playhead.playback ↔
        (p.playhead.CutOff secs now → (EndsOnDuration edits' ↔ EndsOnDuration edits)) ∧
          (p.playhead.LeftBehind first secs now →
            (StartsOnDuration edits' ↔ StartsOnDuration edits))) ∧
      (q'.playhead.playback = q.playhead.playback →
        ∀ later, (q'.command later .frame).2 = (q.command later .frame).2) := by
  intro p q q' first secs
  obtain ⟨hb₀, hf₀⟩ : p₀.playhead.Bounded ∧ p₀.Fresh := by
    obtain ⟨scale, rfl⟩ := mount_eq h
    exact ⟨Playhead.bounded_new _ _, rfl⟩
  have hb : p.playhead.Bounded := bounded_after hb₀ events
  have hf : p.Fresh := fresh_after hf₀ events
  have ht : p.Timed := timed_after (timed_mount h) events
  have hfold := Customization.foldl_edit_perm hind hperm p.customization
  have hcustomization : q'.customization = q.customization := by
    rw [customization_after_edits, customization_after_edits, hfold]
  have hcomposition : q'.composition = q.composition := by
    rw [hf.composition_after_edits, hf.composition_after_edits, hfold]
  refine ⟨hcustomization, hcomposition, ?_, fun hsame later => ?_⟩
  · by_cases hno : ∀ secs, .setDuration secs ∉ edits
    · obtain ⟨hplayhead, hends, hstarts⟩ :=
        playback_edits_iff_of_keepsDuration hno hind hperm p now
      exact iff_of_true (congrArg Playhead.playback hplayhead) ⟨fun _ => hends, fun _ => hstarts⟩
    · simp only [not_forall, not_not] at hno
      obtain ⟨asked, hmem⟩ := hno
      obtain ⟨before, after, rfl⟩ := List.append_of_mem hmem
      obtain ⟨before', after', rfl⟩ := List.append_of_mem (hperm.mem_iff.2 hmem)
      exact playback_edits_iff hb ht hf now hind hperm
  · obtain ⟨-, ho⟩ := after_fixed p (edits.map (.command now))
    obtain ⟨-, ho'⟩ := after_fixed p (edits'.map (.command now))
    obtain ⟨hscale, -⟩ := after_edits hind.edit p now
    obtain ⟨hscale', -⟩ := after_edits (hind.perm hperm).edit p now
    have htime : q'.playhead.time = q.playhead.time := congrArg Playback.time hsame
    change PreviewReply.frame q'.currentFrame = .frame q.currentFrame
    rw [currentFrame, currentFrame, hcomposition, htime, hscale, hscale', ho, ho']

/-- A longer duration cuts off nothing, so that it may come last or not. -/
theorem longer_duration_anywhere :
    let edits : List PreviewCommand :=
      [.setTheme "gold", .setDuration 20.0, .setPlaceholder "headline" "Sale"]
    let edits' : List PreviewCommand :=
      [.setPlaceholder "headline" "Sale", .setTheme "gold", .setDuration 20.0]
    Independent edits ∧ edits'.Perm edits ∧
      ∃ p₀, mount (.starter "card" "Card") .empty .standard = .ok p₀ ∧
        let p := p₀.after [.command 0.0 .play]
        let q := p.after (edits.map (.command 8.0))
        let q' := p.after (edits'.map (.command 8.0))
        q.playhead.playback = ⟨8.0, 20.0, .playing, true⟩ ∧
          q'.playhead.playback = q.playhead.playback ∧
          (q'.command 8.0 .frame).2 = (q.command 8.0 .frame).2 := by
  intro edits edits'
  have hind : Independent edits := ⟨by decide, by decide⟩
  have hperm : edits'.Perm edits := by decide
  refine ⟨hind, hperm, _, rfl, ?_⟩
  intro p q q'
  have hplayback : q.playhead.playback = ⟨8.0, 20.0, .playing, true⟩ := by decide +kernel
  have hcut : ¬ p.playhead.CutOff q.composition.duration 8.0 := by
    rintro ⟨-, -, -, hle⟩
    exact absurd hle (by decide +kernel)
  have hbehind : ¬ p.playhead.LeftBehind p.composition.duration q.composition.duration 8.0 := by
    rintro ⟨-, hunusable, -⟩
    exact absurd hunusable (by decide +kernel)
  obtain ⟨-, -, hiff, hframe⟩ := @edit_order_iff (.starter "card" "Card") .empty .standard _ rfl
    [.command 0.0 .play] 8.0 _ _ hind hperm
  have hsame : q'.playhead.playback = q.playhead.playback :=
    hiff.2 ⟨fun h => absurd h hcut, fun h => absurd h hbehind⟩
  exact ⟨hplayback, hsame, hframe hsame 8.0⟩

/-- Cut off at five seconds, a loop starts again if another edit follows, and shows its last frame
if none does. -/
theorem shorter_duration_last_or_not :
    let edits : List PreviewCommand := [.setTheme "gold", .setDuration 5.0]
    let edits' : List PreviewCommand := [.setDuration 5.0, .setTheme "gold"]
    Independent edits ∧ edits'.Perm edits ∧
      ∃ p₀, mount (.starter "card" "Card") .empty .standard = .ok p₀ ∧
        let p := p₀.after [.command 0.0 .play]
        let q := p.after (edits.map (.command 8.0))
        let q' := p.after (edits'.map (.command 8.0))
        q.playhead.playback = ⟨5.0, 5.0, .playing, true⟩ ∧
          q'.playhead.playback = ⟨0.0, 5.0, .playing, true⟩ ∧
          q'.currentFrame.time ≠ q.currentFrame.time := by
  refine ⟨⟨by decide, by decide⟩, by decide, _, rfl, ?_⟩
  decide +kernel

end Previewer

end MotionTemplate

import Herald.Dispatch.Run

/-!
# States that differ in reports

What the engine reports about its work has no effect on the work. Two states are alike if they
differ in nothing but the reports in their journals. Bodies, turns and dispatches that start from
states that are alike have the same outcome, and end in states that are alike.
-/
namespace Herald

/-- Whether something is a report of the engine. -/
def Happening.isReport : Happening → Bool
  | reported _ => true
  | _ => false

/-- The entry whose body started, if that is what happened. -/
def Happening.entered? : Happening → Option Entry
  | entered entry => some entry
  | _ => none

namespace World

/-- What bodies and subscribers have left in the journal. -/
def deeds (w : World) : List Happening := w.journal.toList.filter fun h => !h.isReport

/-- The entries whose bodies have started, in the order in which they did. -/
def entered (w : World) : List Entry := w.deeds.filterMap Happening.entered?

/-- The states differ in nothing but reports. -/
structure Alike (a b : World) : Prop where
  registry : a.registry = b.registry
  issued : a.issued = b.issued
  admitted : a.admitted = b.admitted
  flags : a.flags = b.flags
  counters : a.counters = b.counters
  deeds : a.deeds = b.deeds

@[simp] theorem deeds_report (w : World) (t : Report) : (w.report t).deeds = w.deeds := by
  simp [deeds, report, note, Happening.isReport]

@[simp] theorem deeds_note (w : World) (h : Happening) :
    (w.note h).deeds = w.deeds ++ [h].filter fun h => !h.isReport := by
  simp [deeds, note]

@[simp] theorem entered_report (w : World) (t : Report) : (w.report t).entered = w.entered := by
  simp [entered]

namespace Alike

variable {a b c : World}

theorem refl (w : World) : w.Alike w := ⟨rfl, rfl, rfl, rfl, rfl, rfl⟩

theorem symm (alike : a.Alike b) : b.Alike a :=
  ⟨alike.registry.symm, alike.issued.symm, alike.admitted.symm, alike.flags.symm,
    alike.counters.symm, alike.deeds.symm⟩

theorem trans (first : a.Alike b) (second : b.Alike c) : a.Alike c :=
  ⟨first.registry.trans second.registry, first.issued.trans second.issued,
    first.admitted.trans second.admitted, first.flags.trans second.flags,
    first.counters.trans second.counters, first.deeds.trans second.deeds⟩

theorem entered (alike : a.Alike b) : a.entered = b.entered := by
  simp only [World.entered, alike.deeds]

theorem isCancelled (alike : a.Alike b) (o : Occurrence) : a.isCancelled o = b.isCancelled o := by
  simp only [World.isCancelled, alike.flags]

theorem report (w : World) (t : Report) : (w.report t).Alike w :=
  ⟨rfl, rfl, rfl, rfl, rfl, deeds_report w t⟩

/-- Each of the states may get its own report. -/
theorem reports (alike : a.Alike b) (s t : Report) : (a.report s).Alike (b.report t) :=
  ((report a s).trans alike).trans (report b t).symm

theorem note (alike : a.Alike b) (h : Happening) : (a.note h).Alike (b.note h) := by
  refine ⟨alike.registry, alike.issued, alike.admitted, alike.flags, alike.counters, ?_⟩
  simp only [deeds_note, alike.deeds]

theorem countUp (alike : a.Alike b) (counter : Nat) :
    (a.countUp counter).Alike (b.countUp counter) := by
  refine ⟨alike.registry, alike.issued, alike.admitted, alike.flags, ?_, alike.deeds⟩
  simp only [World.countUp, alike.counters]

theorem setCancelled (alike : a.Alike b) (o : Occurrence) (flag : Bool) :
    (a.setCancelled o flag).Alike (b.setCancelled o flag) := by
  unfold World.setCancelled
  split
  · refine ⟨alike.registry, alike.issued, alike.admitted, ?_, alike.counters, alike.deeds⟩
    simp only [alike.flags]
  · exact alike

end Alike

/-- Two ends are in agreement: the answers are the same and the states are alike. -/
def Agree {α : Type} (x y : World × α) : Prop := x.1.Alike y.1 ∧ x.2 = y.2

theorem agree_cases {α : Type} {x y : Option (World × α)} (agree : Option.Rel Agree x y) :
    (x = none ∧ y = none) ∨
      ∃ a b answer, x = some (a, answer) ∧ y = some (b, answer) ∧ a.Alike b := by
  cases agree with
  | none => exact .inl ⟨rfl, rfl⟩
  | @some first second agree =>
    obtain ⟨alike, same⟩ := agree
    exact .inr ⟨first.1, second.1, second.2, by rw [← same], rfl, alike⟩

section
variable {a b : World}

theorem register_agree (alike : a.Alike b) (owner : Owner) (l : Listener) :
    Agree (a.register owner l) (b.register owner l) := by
  unfold register
  rw [alike.registry, alike.issued]
  split
  · exact ⟨alike, rfl⟩
  · split
    · refine ⟨Alike.reports ?_ _ _, rfl⟩
      exact ⟨rfl, rfl, alike.admitted, alike.flags, alike.counters, alike.deeds⟩
    · exact ⟨alike.reports _ _, rfl⟩

theorem unregister_agree (alike : a.Alike b) (target : Target) :
    Agree (a.unregister target) (b.unregister target) := by
  unfold unregister
  rw [alike.registry]
  dsimp only
  split
  · exact ⟨alike.reports _ _, rfl⟩
  · refine ⟨Alike.reports ?_ _ _, rfl⟩
    exact ⟨rfl, alike.issued, alike.admitted, alike.flags, alike.counters, alike.deeds⟩

theorem reached_agree (alike : a.Alike b) (d : Dispatch) : Agree (a.reached d) (b.reached d) := by
  unfold reached resolve
  rw [alike.registry]
  exact ⟨alike.reports _ _, rfl⟩

end
end World

open World

/-- Dispatches from states that are alike end in agreement, or have no outcome in either. -/
def Nested.Respects (nested : Nested) : Prop :=
  ∀ a b d, a.Alike b → Option.Rel Agree (nested a d) (nested b d)

namespace Body

theorem run_agree {nested : Nested} (respects : nested.Respects) (body : Body) {a b : World}
    (alike : a.Alike b) : Option.Rel Agree (body.run nested a) (body.run nested b) := by
  -- By the requests of the body: each of them leaves the states alike and has the same answer.
  induction body generalizing a b with
  | finish outcome => exact .some ⟨alike, rfl⟩
  | say v next ih => exact ih (alike.note _)
  | count counter next ih =>
    simp only [run, alike.counters]
    exact ih _ (alike.countUp counter)
  | isCancelled o next ih =>
    simp only [run, alike.isCancelled o]
    exact ih _ alike
  | setCancelled o flag next ih => exact ih (alike.setCancelled o flag)
  | register owner listener next ih =>
    have agree := register_agree alike owner listener
    simp only [run, agree.2]
    exact ih _ agree.1
  | unregister target next ih =>
    have agree := unregister_agree alike target
    simp only [run, agree.2]
    exact ih _ agree.1
  | dispatch d next ih =>
    simp only [run]
    rcases agree_cases (respects a b d alike) with
      ⟨left, right⟩ | ⟨after, other, records, left, right, ended⟩
    · rw [left, right]
      exact .none
    · rw [left, right]
      exact ih records ended

end Body

namespace World

variable (behaviour : Behaviour) {nested : Nested} {a b : World}

private theorem reportOutcome_alike (w : World) (entry : Entry) (outcome : Outcome) :
    (w.reportOutcome entry outcome).Alike w := by
  cases outcome with
  | value v => exact .refl w
  | failed failure => exact .report w _
  | panicked panic => exact .report w _

private theorem reportCancellation_alike (w : World) (entry : Entry) (before after : Bool) :
    (w.reportCancellation entry before after).Alike w := by
  unfold reportCancellation
  split
  · exact .report w _
  · exact .refl w

/-- What is reported after a body has ended makes no difference. -/
theorem reportEnd_alike (w : World) (entry : Entry) (before after : Bool) (outcome : Outcome) :
    ((w.reportCancellation entry before after).reportOutcome entry outcome).Alike w :=
  (reportOutcome_alike _ entry outcome).trans (reportCancellation_alike w entry before after)

theorem takeTurn_agree (respects : nested.Respects) (d : Dispatch) (entry : Entry)
    (alike : a.Alike b) :
    Option.Rel Agree (takeTurn behaviour nested d entry a)
      (takeTurn behaviour nested d entry b) := by
  unfold takeTurn
  rw [alike.isCancelled d.occurrence]
  split
  · exact .some ⟨alike.reports _ _, rfl⟩
  · split
    · exact .some ⟨alike.reports _ _, rfl⟩
    next arguments bound =>
      dsimp only
      have ends := Body.run_agree respects
        (behaviour entry.listener.key ⟨d, entry.listener.contract, arguments⟩)
        (alike.note (.entered entry))
      rcases agree_cases ends with ⟨left, right⟩ | ⟨after, other, outcome, left, right, ended⟩
      · rw [left, right]
        exact .none
      · rw [left, right]
        have first := reportEnd_alike after entry (b.isCancelled d.occurrence)
          (after.isCancelled d.occurrence) outcome
        have second := reportEnd_alike other entry (b.isCancelled d.occurrence)
          (other.isCancelled d.occurrence) outcome
        exact .some ⟨(first.trans ended).trans second.symm, rfl⟩

theorem takeTurns_agree (respects : nested.Respects) (d : Dispatch) (entries : List Entry)
    (alike : a.Alike b) :
    Option.Rel Agree (takeTurns behaviour nested d entries a)
      (takeTurns behaviour nested d entries b) := by
  induction entries generalizing a b with
  | nil => exact .some ⟨alike, rfl⟩
  | cons entry rest ih =>
    simp only [takeTurns]
    have turn := takeTurn_agree behaviour respects d entry alike
    rcases agree_cases turn with ⟨left, right⟩ | ⟨after, other, reply, left, right, ended⟩
    · rw [left, right]
      exact .none
    · rw [left, right]
      dsimp only
      rcases agree_cases (ih ended) with ⟨left, right⟩ | ⟨last, lastly, records, left, right, done⟩
      · rw [left, right]
        exact .none
      · rw [left, right]
        exact .some ⟨done, rfl⟩

/-- A dispatch is not affected by what has been reported before. -/
theorem dispatch_respects (depth : Nat) :
    Nested.Respects (dispatch behaviour depth) := by
  -- On the depth: the dispatches of bodies go one less deep.
  induction depth with
  | zero => exact fun _ _ _ _ => .none
  | succ depth ih =>
    intro a b d alike
    have reached := reached_agree alike d
    simp only [dispatch]
    rw [reached.2]
    have begun := reached.1.reports
      (.dispatching d.event.type d.origin.name d.channel (b.reached d).2.length)
      (.dispatching d.event.type d.origin.name d.channel (b.reached d).2.length)
    split
    · exact .some ⟨begun, rfl⟩
    · have turns := takeTurns_agree behaviour ih d (b.reached d).2 begun
      rcases agree_cases turns with ⟨left, right⟩ | ⟨after, other, records, left, right, ended⟩
      · rw [left, right]
        exact .none
      · rw [left, right]
        exact .some ⟨ended.reports _ _, rfl⟩

end World
end Herald

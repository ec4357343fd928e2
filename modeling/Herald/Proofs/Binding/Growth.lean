import Herald.Proofs.Binding.Outcome

/-!
# Events that grow and contracts that ask for less

An event that has all the properties of another, with more among them, has the same value for every
name that the other knows, because no name occurs twice. A contract asks for less if some of its
parameters also take narrower types or can be done without. Neither takes away anything that a
listener has been given: binding still succeeds, and only what stood in for a missing property may
change.
-/
namespace Herald

/-- Whatever one event has, the other has as well. -/
def Event.GrowsTo (e larger : Event) : Prop := ∀ q ∈ e.properties, q ∈ larger.properties

theorem Event.GrowsTo.property? {e larger : Event} (grows : e.GrowsTo larger)
    (accepted : larger.Accepted) {name : String} {q : Property}
    (found : e.property? name = some q) : larger.property? name = some q := by
  have named : q.name = name := by simpa using List.find?_some found
  have member : q ∈ larger.properties := grows q (List.mem_of_find?_eq_some found)
  have only := Event.filter_name_eq accepted.sound member
  rw [named] at only
  rw [Event.property?, ← List.head?_filter, only]
  rfl

namespace Parameter

variable {p looser : Parameter} {e larger : Event}

/-- The parameter is the same but that it may take narrower types, or be done without, as well. -/
def LoosensTo (p looser : Parameter) : Prop :=
  ∃ optional byAssignability : Bool, looser = { p with
    optional := p.optional || optional
    byAssignability := p.byAssignability || byAssignability }

theorem finds_of_loosened (loosens : p.LoosensTo looser) (grows : e.GrowsTo larger)
    (accepted : larger.Accepted) {v : Value} (finds : p.Finds e v) : looser.Finds larger v := by
  obtain ⟨optional, byAssignability, rfl⟩ := loosens
  cases finds with
  | @exactly type v asked mode found =>
    obtain ⟨q, named, same, value⟩ := Event.exactValue?_eq_some_iff.mp found
    have kept := grows.property? accepted named
    cases switched : byAssignability with
    | false =>
      exact .exactly asked (by simp [mode])
        (Event.exactValue?_eq_some_iff.mpr ⟨q, kept, same, value⟩)
    | true =>
      -- A property that is declared under the very type is found by assignability too.
      have narrow : type.isAssignableFrom q.type = true :=
        same ▸ ValueType.isAssignableFrom_self q.type
      exact .assignably asked (by simp)
        (Event.assignableValue?_eq_some_iff.mpr ⟨q, kept, narrow, value⟩)
  | assignably asked mode found =>
    obtain ⟨q, named, narrow, value⟩ := Event.assignableValue?_eq_some_iff.mp found
    exact .assignably asked (by simp [mode])
      (Event.assignableValue?_eq_some_iff.mpr ⟨q, grows.property? accepted named, narrow, value⟩)

theorem served_of_loosened (loosens : p.LoosensTo looser) (grows : e.GrowsTo larger)
    (accepted : larger.Accepted) (served : p.Served e) : looser.Served larger := by
  have finds {v : Value} : p.Finds e v → looser.Finds larger v :=
    finds_of_loosened loosens grows accepted
  obtain ⟨property, provided⟩ := served
  obtain ⟨optional, byAssignability, rfl⟩ := loosens
  refine ⟨property, provided.imp (fun ⟨v, found⟩ => ⟨v, finds found⟩) fun before => ?_⟩
  simp [before]

/-- A parameter that has been given a value is given that same value again. -/
theorem gets_of_loosened (loosens : p.LoosensTo looser) (grows : e.GrowsTo larger)
    (accepted : larger.Accepted) {a : Argument} (gets : p.Gets e a) {v : Value}
    (carries : a.value? = some v) : looser.Gets larger a := by
  have finds {v : Value} : p.Finds e v → looser.Finds larger v :=
    finds_of_loosened loosens grows accepted
  obtain ⟨optional, byAssignability, rfl⟩ := loosens
  cases gets with
  | value found plain => exact .value (finds found) plain
  | present found wrapped => exact .present (finds found) wrapped
  | null => cases carries
  | absent => cases carries

end Parameter

namespace Contract

/-- The contract is the same but that some of its parameters are looser. -/
def LoosensTo (contract looser : Contract) : Prop :=
  ∃ parameters, looser = { contract with parameters } ∧
    List.Forall₂ Parameter.LoosensTo contract.parameters parameters

variable {contract looser : Contract} {e larger : Event}

theorem lookedUp_of_loosened (loosens : contract.LoosensTo looser) :
    List.Forall₂ Parameter.LoosensTo contract.lookedUp looser.lookedUp := by
  obtain ⟨parameters, rfl, each⟩ := loosens
  unfold lookedUp
  dsimp only
  split
  · exact List.forall₂_drop 1 each
  · exact each

theorem bind_succeeds_of_loosened (accepted : larger.Accepted) (grows : e.GrowsTo larger)
    (loosens : contract.LoosensTo looser) (bound : ∃ arguments, contract.bind e = .ok arguments) :
    ∃ arguments, looser.bind larger = .ok arguments := by
  obtain ⟨declares, served⟩ := bind_succeeds_iff.mp bound
  have looked := lookedUp_of_loosened loosens
  refine bind_succeeds_iff.mpr ⟨fun nothing => declares ?_, fun q member => ?_⟩
  · obtain ⟨parameters, rfl, each⟩ := loosens
    rw [show parameters = [] from nothing] at each
    exact List.forall₂_nil_right_iff.mp each
  · obtain ⟨i, inside, rfl⟩ := List.getElem_of_mem member
    have within : i < contract.lookedUp.length := looked.length_eq ▸ inside
    exact Parameter.served_of_loosened (looked.get within inside) grows accepted
      (served _ (List.getElem_mem within))

/-- What binds to an event also binds to a larger one and under a contract that asks for less. There
are as many arguments, and those that are the event or carry a value stay as they are. -/
theorem bind_grows (accepted : larger.Accepted) (grows : e.GrowsTo larger)
    (loosens : contract.LoosensTo looser) {arguments : List Argument}
    (bound : contract.bind e = .ok arguments) :
    ∃ others, looser.bind larger = .ok others ∧ others.length = arguments.length ∧
      ∀ (i : Nat) (a : Argument), arguments[i]? = some a →
        (a = .event ∨ (∃ v, a = .value v) ∨ ∃ v, a = .present v) → others[i]? = some a := by
  obtain ⟨others, again⟩ := bind_succeeds_of_loosened accepted grows loosens ⟨arguments, bound⟩
  obtain ⟨length, first, gets⟩ := arguments_of_bind bound
  obtain ⟨others_length, others_first, others_gets⟩ := arguments_of_bind again
  obtain ⟨parameters, rfl, each⟩ := loosens
  have as_many : others.length = arguments.length :=
    others_length.trans (each.length_eq.symm.trans length.symm)
  refine ⟨others, again, as_many, fun i a given kind => ?_⟩
  by_cases front : i = 0 ∧ contract.firstIsEvent = true
  · -- The event stands at the first place in both cases.
    obtain ⟨rfl, flag⟩ := front
    rw [others_first.mpr flag, ← given]
    exact (first.mpr flag).symm
  · obtain ⟨inside, rfl⟩ := List.getElem?_eq_some_iff.mp given
    have declared : i < contract.parameters.length := length ▸ inside
    have loosened : i < parameters.length := each.length_eq ▸ declared
    have there : i < others.length := as_many ▸ inside
    have got := (gets i _ _ (List.getElem?_eq_getElem declared) given).resolve_left front
    have got_again := (others_gets i _ _ (List.getElem?_eq_getElem loosened)
      (List.getElem?_eq_getElem there)).resolve_left front
    have carries : ∃ v, arguments[i].value? = some v := by
      rcases kind with event | ⟨v, value⟩ | ⟨v, present⟩
      · rw [event] at got
        cases got
      · exact ⟨v, by rw [value]; rfl⟩
      · exact ⟨v, by rw [present]; rfl⟩
    obtain ⟨v, carries⟩ := carries
    have kept := Parameter.gets_of_loosened (each.get declared loosened) grows accepted got carries
    rw [List.getElem?_eq_getElem there, kept.unique got_again]

/-- An order, at first with its total alone, and then with a note before it. -/
def order : Event := ⟨.ofName "Order", [⟨"total", .integer, .integer 25⟩], none⟩

def annotatedOrder : Event :=
  { order with properties := ⟨"note", .string, .string "urgent"⟩ :: order.properties }

/-- A contract that asks for the event, for its total, and for a note if there is one. -/
def packing : Contract :=
  { Contract.forEvent (.ofName "Order") with
    parameters := [
      .ofType "order" (.event .root),
      .ofType "total" (.value .integer),
      (Parameter.ofType "note" (.property .string)).makeWrapped] }

/-- The contract that takes totals of narrower types, and orders without a total. -/
def loosePacking : Contract :=
  { packing with
    parameters := [
      .ofType "order" (.event .root),
      (Parameter.ofType "total" (.value .integer)).makeAssignable.makeOptional,
      (Parameter.ofType "note" (.property .string)).makeWrapped] }

theorem bind_grows_annotated :
    annotatedOrder.Accepted ∧ order.GrowsTo annotatedOrder ∧ packing.LoosensTo loosePacking ∧
    packing.bind order = .ok [.event, .value (.integer 25), .absent] ∧
    ∃ others, loosePacking.bind annotatedOrder = .ok others ∧ others.length = 3 ∧
      others[0]? = some .event ∧ others[1]? = some (.value (.integer 25)) ∧
      others[2]? = some (.present (.string "urgent")) := by
  have sound : Event.Sound annotatedOrder.properties :=
    ⟨by decide, by simp [annotatedOrder, order, Property.fits]; decide⟩
  have accepted : annotatedOrder.Accepted := .built (Event.build_eq_ok_iff.mpr ⟨sound, rfl⟩)
  have grows : order.GrowsTo annotatedOrder := fun q member => List.mem_cons_of_mem _ member
  have loosens : packing.LoosensTo loosePacking :=
    ⟨_, rfl, .cons ⟨false, false, rfl⟩ (.cons ⟨true, true, rfl⟩ (.cons ⟨false, false, rfl⟩ .nil))⟩
  have bound : packing.bind order = .ok [.event, .value (.integer 25), .absent] := by rfl
  obtain ⟨others, again, length, kept⟩ := bind_grows accepted grows loosens bound
  refine ⟨accepted, grows, loosens, bound, others, again, length, kept 0 _ rfl (.inl rfl),
    kept 1 _ rfl (.inr (.inl ⟨_, rfl⟩)), ?_⟩
  -- The note was absent before, so what is there now comes from the larger event.
  have computed : loosePacking.bind annotatedOrder =
      .ok [.event, .value (.integer 25), .present (.string "urgent")] := by rfl
  rw [computed] at again
  cases again
  rfl

end Contract
end Herald

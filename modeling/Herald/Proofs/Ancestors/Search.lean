import Herald.Proofs.Hierarchy

/-!
# The walk as a search

A search goes through a list of types while the list grows. It looks at one type after the other and
puts those of its parents at the end of the list whose names are not in it yet, and it is over when
everything in the list has been looked at. A hierarchy has no end of names, so the search comes to
an end, and what it has found by then is what the walk visits.

What the search keeps is that every parent of a type that has been looked at is in the list under
its name. A type that is found anew has therefore no child by name among those looked at before, and
its first child in the list is the type that is being looked at. This place only moves forward, so
the list is in breadth-first order.
-/
namespace Herald
namespace EventType

/-! ### New types -/

theorem not_mem_of_mem_unseen {seen ts : List EventType} {x : EventType}
    (member : x ∈ unseen seen ts) : x.name ∉ names seen := by
  induction ts generalizing seen with
  | nil => simp [unseen] at member
  | cons t ts ih =>
    simp only [unseen, any_same_iff] at member
    split at member
    · exact ih member
    next fresh =>
      rcases List.mem_cons.mp member with rfl | later
      · exact fresh
      · exact fun old => ih later (List.mem_cons_of_mem _ old)

theorem unseen_congr {seen others : List EventType} (ts : List EventType)
    (alike : ∀ n, n ∈ names seen ↔ n ∈ names others) : unseen seen ts = unseen others ts := by
  induction ts generalizing seen others with
  | nil => rfl
  | cons t ts ih =>
    have later : unseen (t :: seen) ts = unseen (t :: others) ts :=
      ih fun n => by simp only [names, List.map_cons, List.mem_cons, alike n]
    simp only [unseen, any_same_iff, alike t.name, ih alike, later]

/-! ### Searching -/

/-- A search through a hierarchy: the types that have been found, and how many of them have been
looked at. -/
structure Search where
  found : List EventType
  examined : Nat

namespace Search

/-- The search from a type, before anything has been looked at. -/
def start (t : EventType) : Search := ⟨[t], 0⟩

/-- The types that have been found with one more, unless its name is among theirs. -/
def note (found : List EventType) (p : EventType) : List EventType :=
  if found.any (same p) then found else found ++ [p]

/-- The search after a look at the next type; there is none when all have been looked at. -/
def next? (s : Search) : Option Search :=
  s.found[s.examined]?.map fun t => ⟨t.parents.foldl note s.found, s.examined + 1⟩

/-- The search comes to its end, and has found these types by then. -/
inductive Ends : Search → List EventType → Prop where
  | done {s : Search} (stopped : s.next? = none) : Ends s s.found
  | step {s after : Search} {found : List EventType} (moved : s.next? = some after)
      (ends : Ends after found) : Ends s found

theorem foldl_note (found ps : List EventType) :
    ps.foldl note found = found ++ unseen found ps := by
  induction ps generalizing found with
  | nil => simp [unseen]
  | cons p ps ih =>
    rw [List.foldl_cons, ih, note, unseen]
    split
    · rfl
    · have alike : unseen (found ++ [p]) ps = unseen (p :: found) ps :=
        unseen_congr ps fun n => by simp [or_comm]
      simp [alike]

variable {s : Search} {t : EventType}

theorem next?_eq (here : s.found[s.examined]? = some t) :
    s.next? = some ⟨s.found ++ unseen s.found t.parents, s.examined + 1⟩ := by
  rw [next?, here, Option.map_some, foldl_note]

theorem next?_cases {after : Search} (moved : s.next? = some after) :
    ∃ t, s.found[s.examined]? = some t ∧
      after = ⟨s.found ++ unseen s.found t.parents, s.examined + 1⟩ := by
  obtain ⟨t, here, same⟩ := Option.map_eq_some_iff.mp moved
  exact ⟨t, here, by rw [← same, foldl_note]⟩

/-- A search that has looked at some types and has others in line goes on like the walk. -/
theorem ends_walk (visited line : List EventType) :
    Ends ⟨visited ++ line, visited.length⟩ (visited ++ walk (visited ++ line) line) := by
  -- Along the walk: its line is what the search has found and not looked at yet.
  generalize all : visited ++ line = seen
  fun_induction walk seen line generalizing visited with
  | case1 seen =>
    rw [List.append_nil] at all ⊢
    subst all
    exact .done (by simp [next?])
  | case2 seen t rest ih =>
    subst all
    have here : (visited ++ t :: rest)[visited.length]? = some t := by simp
    have later := ih (visited ++ [t]) (by simp)
    rw [List.length_append, List.length_singleton, List.append_assoc visited [t],
      List.singleton_append] at later
    exact .step (next?_eq here) later

theorem Ends.unique {found other : List EventType} (one : s.Ends found) (two : s.Ends other) :
    found = other := by
  induction one with
  | done stopped =>
    cases two with
    | done => rfl
    | step moved _ =>
      rw [stopped] at moved
      cases moved
  | step moved _ ih =>
    cases two with
    | done stopped =>
      rw [stopped] at moved
      cases moved
    | step moved' ends =>
      rw [moved] at moved'
      cases moved'
      exact ih ends

theorem ends_iff (t : EventType) (found : List EventType) :
    (start t).Ends found ↔ found = t.ancestors := by
  have ends : (start t).Ends t.ancestors := ends_walk [] [t]
  constructor
  · exact fun other => other.unique ends
  · rintro rfl
    exact ends

/-! ### First children -/

/-- The place of the first type in a list that has a parent of this name. -/
def firstChild (ts : List EventType) (n : String) : Nat :=
  ts.findIdx fun b => (names b.parents).contains n

theorem firstChild_append {ts : List EventType} {n : String} (inside : firstChild ts n < ts.length)
    (more : List EventType) : firstChild (ts ++ more) n = firstChild ts n := by
  unfold firstChild at inside ⊢
  rw [List.findIdx_append, if_pos inside]

theorem firstChild_eq {ts : List EventType} {n : String} {i : Nat} {b : EventType}
    (here : ts[i]? = some b) (child : n ∈ names b.parents)
    (first : ∀ j < i, ∀ c, ts[j]? = some c → n ∉ names c.parents) : firstChild ts n = i := by
  obtain ⟨inside, rfl⟩ := List.getElem?_eq_some_iff.mp here
  rw [firstChild, List.findIdx_eq inside]
  refine ⟨List.contains_iff_mem.mpr child, fun j before => ?_⟩
  rw [← Bool.not_eq_true, List.contains_iff_mem]
  exact first j before _ (List.getElem?_eq_getElem _)

/-- What a search keeps: it has the parents of the types that it has looked at, by their names, and
every type but the one it started from has come in with its first child. -/
structure Traced (s : Search) : Prop where
  covered : ∀ i < s.examined, ∀ b, s.found[i]? = some b → ∀ p ∈ b.parents, p.name ∈ names s.found
  brought : ∀ k a, 0 < k → s.found[k]? = some a →
    firstChild s.found a.name < s.examined ∧ firstChild s.found a.name < k ∧
      ∃ b, s.found[firstChild s.found a.name]? = some b ∧ a ∈ b.parents
  ordered : ∀ j k a b, 0 < j → j ≤ k → s.found[j]? = some a → s.found[k]? = some b →
    firstChild s.found a.name ≤ firstChild s.found b.name

theorem traced_start (t : EventType) : (start t).Traced where
  covered i before := absurd before (Nat.not_lt_zero i)
  brought k a later here := by
    rw [start, List.getElem?_singleton, if_neg (Nat.ne_of_gt later)] at here
    cases here
  ordered j k a b later _ here _ := by
    rw [start, List.getElem?_singleton, if_neg (Nat.ne_of_gt later)] at here
    cases here

private theorem place_cases {new : List EventType} {k : Nat} {a : EventType}
    (here : (s.found ++ new)[k]? = some a) :
    s.found[k]? = some a ∨ s.found.length ≤ k ∧ a ∈ new := by
  rw [List.getElem?_append] at here
  split at here
  · exact .inl here
  next outside => exact .inr ⟨Nat.le_of_not_lt outside, List.mem_of_getElem? here⟩

theorem Traced.step (traced : s.Traced) (here : s.found[s.examined]? = some t) :
    Traced ⟨s.found ++ unseen s.found t.parents, s.examined + 1⟩ := by
  have within : s.examined < s.found.length := (List.getElem?_eq_some_iff.mp here).1
  have kept {i : Nat} {b : EventType} (old : s.found[i]? = some b) :
      (s.found ++ unseen s.found t.parents)[i]? = some b := by
    rw [List.getElem?_append_left (List.getElem?_eq_some_iff.mp old).1, old]
  have old_child {k : Nat} {a : EventType} (later : 0 < k) (old : s.found[k]? = some a) :
      firstChild (s.found ++ unseen s.found t.parents) a.name = firstChild s.found a.name :=
    firstChild_append (Nat.lt_trans (traced.brought k a later old).1 within) _
  -- The parents of the types before `t` were in the list already, and a new type was not.
  have new_child {a : EventType} (new : a ∈ unseen s.found t.parents) :
      firstChild (s.found ++ unseen s.found t.parents) a.name = s.examined := by
    refine firstChild_eq (kept here) (List.mem_map_of_mem (mem_of_mem_unseen new)) ?_
    intro j before c place child
    rw [List.getElem?_append_left (Nat.lt_trans before within)] at place
    obtain ⟨p, parent, same⟩ := List.mem_map.mp child
    exact not_mem_of_mem_unseen new (same ▸ traced.covered j before c place p parent)
  constructor
  -- Of the types looked at only `t` is new, and its parents have just been put in.
  · intro i before b place p parent
    rw [names, List.map_append, List.mem_append]
    rcases Nat.lt_succ_iff_lt_or_eq.mp before with earlier | rfl
    · rw [List.getElem?_append_left (Nat.lt_trans earlier within)] at place
      exact .inl (traced.covered i earlier b place p parent)
    · rw [kept here] at place
      cases place
      exact seen_or_unseen s.found parent
  · intro k a later place
    rcases place_cases place with old | ⟨behind, new⟩
    · obtain ⟨looked, before, b, child, parent⟩ := traced.brought k a later old
      rw [old_child later old]
      exact ⟨Nat.lt_succ_of_lt looked, before, b, kept child, parent⟩
    · rw [new_child new]
      exact ⟨Nat.lt_succ_self _, Nat.lt_of_lt_of_le within behind, t, kept here,
        mem_of_mem_unseen new⟩
  · intro j k a b later before first second
    rcases place_cases first with old | ⟨behind, new⟩
    · rw [old_child later old]
      rcases place_cases second with old' | ⟨-, new'⟩
      · rw [old_child (Nat.lt_of_lt_of_le later before) old']
        exact traced.ordered j k a b later before old old'
      · rw [new_child new']
        exact Nat.le_of_lt (traced.brought j a later old).1
    · rcases place_cases second with old' | ⟨-, new'⟩
      · -- Nothing old lies behind what is new.
        have inside := (List.getElem?_eq_some_iff.mp old').1
        omega
      · exact Nat.le_of_eq ((new_child new).trans (new_child new').symm)

theorem Ends.traced {found : List EventType} (ends : s.Ends found) (traced : s.Traced) :
    ∃ examined, Traced ⟨found, examined⟩ := by
  induction ends with
  | done => exact ⟨_, traced⟩
  | step moved _ ih =>
    obtain ⟨t, here, rfl⟩ := next?_cases moved
    exact ih (traced.step here)

end Search

open Search (firstChild)

theorem mem_names_ancestors_iff {t : EventType} (coherent : Coherent t) {n : String} :
    n ∈ names t.ancestors ↔ ∃ a, Above t a ∧ a.name = n := by
  constructor
  · intro named
    obtain ⟨a, visited, same⟩ := List.mem_map.mp named
    exact ⟨a, above_of_mem_ancestors visited, same⟩
  · rintro ⟨a, above, rfl⟩
    exact mem_names_ancestors_of_above coherent above

/-- The search from a type ends, with the ancestors of the type and with nothing else. They begin
with the type itself, no name is twice among them, and each parent of one of them is there under its
name. Every other ancestor is a parent of one before it, namely of the first that has a parent of
its name, and the places of these first children are in order. In a coherent hierarchy the names of
the ancestors are all those above the type. -/
theorem ancestors_breadth_first (t : EventType) :
    (∀ found, (Search.start t).Ends found ↔ found = t.ancestors) ∧
    t.ancestors[0]? = some t ∧
    (names t.ancestors).Nodup ∧
    (∀ k a, 0 < k → t.ancestors[k]? = some a →
      ∃ b, firstChild t.ancestors a.name < k ∧
        t.ancestors[firstChild t.ancestors a.name]? = some b ∧ a ∈ b.parents) ∧
    (∀ b ∈ t.ancestors, ∀ p ∈ b.parents, p.name ∈ names t.ancestors) ∧
    (∀ j k a b, 0 < j → j ≤ k → t.ancestors[j]? = some a → t.ancestors[k]? = some b →
      firstChild t.ancestors a.name ≤ firstChild t.ancestors b.name) ∧
    (Coherent t → ∀ n, n ∈ names t.ancestors ↔ ∃ a, Above t a ∧ a.name = n) := by
  have ends : (Search.start t).Ends t.ancestors := (Search.ends_iff t _).mpr rfl
  obtain ⟨_, traced⟩ := ends.traced (Search.traced_start t)
  refine ⟨Search.ends_iff t, by simp [ancestors, walk], nodup_ancestors t, ?_,
    fun b visited p parent => parent_mem_ancestors visited parent, traced.ordered,
    fun coherent n => mem_names_ancestors_iff coherent⟩
  intro k a later place
  obtain ⟨-, before, b, child, parent⟩ := traced.brought k a later place
  exact ⟨b, before, child, parent⟩

/-- A type with two parents that have a parent in common, and the types above it. -/
def refunds : List EventType :=
  let booking := ofName "Booking"
  let payment := withParents "Payment" [booking]
  let correction := withParents "Correction" [booking]
  [withParents "Refund" [payment, correction], payment, correction, booking, root]

theorem ancestors_breadth_first_refund :
    Coherent refunds[0] ∧
    names (refunds[0]).ancestors = ["Refund", "Payment", "Correction", "Booking", rootName] ∧
    ∀ n, n ∈ names (refunds[0]).ancestors ↔ ∃ a, Above refunds[0] a ∧ a.name = n := by
  have closed : ∀ a ∈ refunds, ∀ p ∈ a.parents, p ∈ refunds := by
    simp [refunds, ofName, withParents, parents, rootName]
  have among : CoherentAmong {t | t ∈ refunds} :=
    coherent_of_listed (fun _ member => member) closed (by decide)
  have coherent : Coherent refunds[0] := coherent_of_within among (.of_mem (List.getElem_mem _))
  obtain ⟨-, -, -, -, -, -, above⟩ := ancestors_breadth_first refunds[0]
  exact ⟨coherent, by cbv, above coherent⟩

end EventType
end Herald

import Herald.Channel
import Mathlib.Data.Fintype.EquivFin

/-!
# Channels as sets

There are more channels than any list names. A set that leaves out the channels of a list therefore
has members, and so have two such sets together; and it is never the set of the channels of a list.
Hence hearing a dispatch is a matter of the members alone, and so is equality of the sets that
expressions stand for, because such a set never has an empty list.
-/
namespace Herald

theorem NameSet.ext_mem {s t : NameSet} (same : ∀ x, x ∈ s ↔ x ∈ t) : s = t := by
  obtain ⟨xs, xs_ascending⟩ := s
  obtain ⟨ys, ys_ascending⟩ := t
  have distinct {zs : List String} (ascending : zs.Pairwise (· < ·)) : zs.Nodup := by
    refine List.Pairwise.imp ?_ ascending
    intro a b less equal
    subst equal
    exact String.lt_irrefl a less
  have perm : xs.Perm ys :=
    (List.perm_ext_iff_of_nodup (distinct xs_ascending) (distinct ys_ascending)).mpr same
  have equal : xs = ys := by
    refine List.Perm.eq_of_pairwise ?_ xs_ascending ys_ascending perm
    intro a b _ _ less more
    exact (String.lt_irrefl a (String.lt_trans less more)).elim
  subst equal
  rfl

namespace Channels

/-- A set that takes in the channels of a list has one there. -/
def Inhabited : Channels → Prop
  | among names => names.names ≠ []
  | _ => True

/-- No list in the set is empty, neither of channels taken in nor of channels left out. -/
def Proper : Channels → Prop
  | among names => names.names ≠ []
  | allBut names => names.names ≠ []
  | _ => True

theorem Proper.inhabited {s : Channels} (proper : s.Proper) : s.Inhabited := by
  cases s with
  | among names => exact proper
  | _ => trivial

/-! ### Members -/

@[simp] theorem contains_everywhere (c : String) : everywhere.contains c = true := rfl

@[simp] theorem contains_nowhere (c : String) : nowhere.contains c = false := rfl

@[simp] theorem contains_among {names : NameSet} {c : String} :
    (among names).contains c = true ↔ c ∈ names :=
  NameSet.contains_iff_mem

@[simp] theorem contains_allBut {names : NameSet} {c : String} :
    (allBut names).contains c = true ↔ c ∉ names := by
  rw [contains, Bool.not_eq_true', ← NameSet.contains_iff_mem, Bool.not_eq_true]

/-- Some channel is in neither of two lists. -/
theorem exists_outside (s t : NameSet) : ∃ c, c ∉ s ∧ c ∉ t := by
  obtain ⟨c, outside⟩ := Infinite.exists_notMem_finset (s.names ++ t.names).toFinset
  rw [List.mem_toFinset, List.mem_append, not_or] at outside
  exact ⟨c, outside⟩

/-! ### Hearing a dispatch -/

theorem listensTo_comm (a b : Channels) : a.listensTo b = b.listensTo a := by
  cases a with
  | among own =>
    cases b with
    | among wanted =>
      -- Both sides look for a name that is in both lists.
      rw [Bool.eq_iff_iff]
      simp only [listensTo, List.any_eq_true, contains_among]
      constructor
      · rintro ⟨c, left, right⟩
        exact ⟨c, right, left⟩
      · rintro ⟨c, right, left⟩
        exact ⟨c, left, right⟩
    | _ => rfl
  | _ => cases b <;> rfl

theorem listensTo_everywhere {s : Channels} (heard : s.isExclude = false) :
    s.listensTo everywhere = true := by
  cases s with
  | everywhere => rfl
  | among names => rfl
  | nowhere => cases heard
  | allBut names => cases heard

/-- A list with a channel in it hears a dispatch to any set that has one of its channels. -/
theorem among_listensTo {names : NameSet} (inhabited : names.names ≠ []) (requested : Channels) :
    (among names).listensTo requested = true ↔
      ∃ c, (among names).contains c = true ∧ requested.contains c = true := by
  simp only [contains_among]
  cases requested with
  | everywhere =>
    obtain ⟨c, member⟩ := List.exists_mem_of_ne_nil _ inhabited
    exact ⟨fun _ => ⟨c, member, rfl⟩, fun _ => rfl⟩
  | nowhere => simp [listensTo]
  | among wanted => exact List.any_eq_true
  | allBut left => exact List.any_eq_true

/-- Two sets that name no channels to take in have one in common unless one of them is empty. -/
private theorem open_listensTo {a b : Channels} (left : ∀ names, a ≠ among names)
    (right : ∀ names, b ≠ among names) :
    a.listensTo b = true ↔ ∃ c, a.contains c = true ∧ b.contains c = true := by
  cases a with
  | among names => exact absurd rfl (left names)
  | nowhere => simp [listensTo]
  | everywhere =>
    cases b with
    | among names => exact absurd rfl (right names)
    | nowhere => simp [listensTo]
    | everywhere => simp [listensTo]
    | allBut names =>
      obtain ⟨c, outside, -⟩ := exists_outside names names
      simp only [listensTo, contains_everywhere, contains_allBut, true_and, true_iff]
      exact ⟨c, outside⟩
  | allBut own =>
    cases b with
    | among names => exact absurd rfl (right names)
    | nowhere => simp [listensTo]
    | everywhere =>
      obtain ⟨c, outside, -⟩ := exists_outside own own
      simp only [listensTo, contains_everywhere, contains_allBut, and_true, true_iff]
      exact ⟨c, outside⟩
    | allBut names =>
      obtain ⟨c, outside⟩ := exists_outside own names
      simp only [listensTo, contains_allBut, true_iff]
      exact ⟨c, outside⟩

theorem listensTo_iff {a b : Channels} (left : a.Inhabited) (right : b.Inhabited) :
    a.listensTo b = true ↔ ∃ c, a.contains c = true ∧ b.contains c = true := by
  by_cases listed : ∃ names, a = among names
  · obtain ⟨names, rfl⟩ := listed
    exact among_listensTo left b
  · by_cases wanted : ∃ names, b = among names
    · obtain ⟨names, rfl⟩ := wanted
      rw [listensTo_comm, among_listensTo right]
      exact exists_congr fun c => and_comm
    · exact open_listensTo (not_exists.mp listed) (not_exists.mp wanted)

/-! ### Sets of expressions -/

theorem ofList_proper (exclude : Bool) (listed : List String) : (ofList exclude listed).Proper := by
  have inhabited : listed ≠ [] → (NameSet.ofList listed).names ≠ [] := by
    intro some_name
    obtain ⟨c, member⟩ := List.exists_mem_of_ne_nil _ some_name
    exact List.ne_nil_of_mem (NameSet.mem_ofList.mpr member)
  unfold ofList
  split
  · cases exclude <;> trivial
  · split
    · trivial
    next named =>
      have some_name : listed ≠ [] := by simpa using named
      cases exclude
      · exact inhabited some_name
      · exact inhabited some_name

theorem parse_proper (expression : String) : (parse expression).Proper := by
  unfold parse ofTrimmed
  split
  · trivial
  · split
    · trivial
    · split
      · exact List.cons_ne_nil _ _
      · exact ofList_proper true _
      · exact ofList_proper false _

/-- The names that a set lists, to take them in or to leave them out. -/
def listed : Channels → NameSet
  | among names => names
  | allBut names => names
  | _ => NameSet.empty

/-- Whether the set has the channels that it does not list. -/
def isOpen : Channels → Bool
  | everywhere => true
  | allBut _ => true
  | _ => false

theorem contains_iff (s : Channels) (c : String) :
    s.contains c = true ↔ (s.isOpen = true ↔ c ∉ s.listed) := by
  have nothing : c ∉ NameSet.empty := List.not_mem_nil
  cases s with
  | everywhere => simp [isOpen, listed, nothing]
  | nowhere => simp [isOpen, listed, nothing]
  | among names => simp [isOpen, listed]
  | allBut names => simp [isOpen, listed]

/-- Sets without empty lists are equal if they have the same members. -/
theorem eq_of_same_members {a b : Channels} (left : a.Proper) (right : b.Proper)
    (same : ∀ c, a.contains c = b.contains c) : a = b := by
  have members (c : String) :
      (a.isOpen = true ↔ c ∉ a.listed) ↔ (b.isOpen = true ↔ c ∉ b.listed) := by
    rw [← contains_iff, ← contains_iff, same c]
  -- What neither set lists is in both or in neither, so both are open or neither is.
  obtain ⟨c, notLeft, notRight⟩ := exists_outside a.listed b.listed
  have alike : a.isOpen = true ↔ b.isOpen = true := by simpa [notLeft, notRight] using members c
  have lists : a.listed = b.listed := by
    apply NameSet.ext_mem
    intro x
    have either := members x
    rw [alike] at either
    by_cases here : b.isOpen = true
    · simpa [here, not_iff_not] using either
    · simpa [here] using either
  have nonempty {names : NameSet} (proper : names.names ≠ []) : names ≠ NameSet.empty :=
    fun equal => proper (congrArg NameSet.names equal)
  cases a with
  | everywhere =>
    cases b with
    | allBut names => exact absurd lists.symm (nonempty right)
    | _ => simp_all [isOpen]
  | nowhere =>
    cases b with
    | among names => exact absurd lists.symm (nonempty right)
    | _ => simp_all [isOpen]
  | among own =>
    cases b with
    | nowhere => exact absurd lists (nonempty left)
    | _ => simp_all [isOpen, listed]
  | allBut own =>
    cases b with
    | everywhere => exact absurd lists (nonempty left)
    | _ => simp_all [isOpen, listed]

/-- A dispatch to one channel is heard by the sets that have the channel. -/
theorem listensTo_single {s : Channels} (inhabited : s.Inhabited) (c : String) :
    s.listensTo (among (NameSet.ofList [c])) = s.contains c := by
  have single {x : String} : (among (NameSet.ofList [c])).contains x = true ↔ x = c := by
    rw [contains_among, NameSet.mem_ofList, List.mem_singleton]
  have one : (among (NameSet.ofList [c])).Inhabited :=
    List.ne_nil_of_mem (NameSet.mem_ofList.mpr List.mem_cons_self)
  rw [Bool.eq_iff_iff, listensTo_iff inhabited one]
  simp only [single, exists_eq_right]

/-- Sets without empty lists are equal if they hear the same dispatches. -/
theorem eq_of_same_heard {a b : Channels} (left : a.Proper) (right : b.Proper)
    (same : ∀ requested, a.listensTo requested = b.listensTo requested) : a = b := by
  apply eq_of_same_members left right
  intro c
  rw [← listensTo_single left.inhabited, ← listensTo_single right.inhabited, same]

/-- A listener hears a dispatch if and only if some channel is in both sets, whichever expressions
the sets are read from, and for other sets whenever they do not take in an empty list. Which of the
two sets is that of the listener makes no difference. -/
theorem listensTo_iff_common_channel :
    (∀ own requested : String, (parse own).listensTo (parse requested) = true ↔
      ∃ c, (parse own).contains c = true ∧ (parse requested).contains c = true) ∧
    (∀ a b : Channels, a.Inhabited → b.Inhabited →
      (a.listensTo b = true ↔ ∃ c, a.contains c = true ∧ b.contains c = true)) ∧
    (∀ expression : String, (parse expression).Proper) ∧
    (∀ a b : Channels, a.listensTo b = b.listensTo a) := by
  refine ⟨fun own requested => ?_, fun a b left right => listensTo_iff left right, parse_proper,
    listensTo_comm⟩
  exact listensTo_iff (parse_proper own).inhabited (parse_proper requested).inhabited

/-- One set leaves out a channel and the other takes in that channel and one more. -/
theorem listensTo_iff_common_channel_partly :
    let own := allBut (NameSet.ofList ["staff"])
    let requested := among (NameSet.ofList ["staff", "guests"])
    own.Inhabited ∧ requested.Inhabited ∧
      (own.listensTo requested = true ↔
        ∃ c, own.contains c = true ∧ requested.contains c = true) ∧
      own.contains "guests" = true ∧ requested.contains "guests" = true := by
  intro own requested
  have left : own.Inhabited := trivial
  have right : requested.Inhabited := by
    intro none
    have named : "staff" ∈ requested.listed := NameSet.mem_ofList.mpr (by simp)
    exact List.ne_nil_of_mem named none
  exact ⟨left, right, listensTo_iff_common_channel.2.1 own requested left right, by decide,
    by decide⟩

end Channels
end Herald

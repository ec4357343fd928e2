import Herald.Proofs.Channels.Expressions

/-!
# Names read as expressions

The names in a list are the trimmed pieces between its commas. Read as an expression once more, such
a name means the channel of that name, unless it begins with the mark for leaving out channels. Then
it means all channels but one, and that one is another channel, because its name is shorter.

Two kinds of names are left over. The mark alone names nothing to leave out, and the mark before the
name for all channels leaves out all of them. Both are read as the expression for no channel.
-/
namespace Herald

namespace Text

theorem mem_of_mem_trimChars {c : Char} {cs : List Char} (member : c ∈ trimChars cs) : c ∈ cs := by
  rw [trimChars_eq] at member
  exact (List.dropWhile_sublist isBlank).subset ((List.rdropWhile_prefix isBlank _).subset member)

theorem length_trimChars_le (cs : List Char) : (trimChars cs).length ≤ cs.length := by
  rw [trimChars_eq]
  have front := (List.dropWhile_sublist isBlank (l := cs)).length_le
  have back := (List.rdropWhile_prefix isBlank (cs.dropWhile isBlank)).length_le
  omega

theorem trimChars_eq_nil_iff {cs : List Char} :
    trimChars cs = [] ↔ ∀ c ∈ cs, isBlank c = true := by
  rw [← List.head?_eq_none_iff, head?_trimChars, List.find?_eq_none]
  simp

theorem trimChars_trimChars (cs : List Char) : trimChars (trimChars cs) = trimChars cs := by
  cases shown : cs.dropWhile isBlank with
  | nil => simp [trimChars_eq, shown]
  | cons c rest =>
    -- What is left begins with a character that is not blank, and keeps it at the second trimming.
    have head : isBlank c = false := by
      have first := List.head?_dropWhile_not isBlank cs
      simpa [shown] using first
    have once : trimChars cs = c :: rest.rdropWhile isBlank := by
      rw [trimChars_eq, shown, rdropWhile_cons head]
    rw [once, trimChars_eq, List.dropWhile_cons_of_neg (by simp [head]), rdropWhile_cons head,
      List.rdropWhile_idempotent]

end Text

namespace Channels

open Text

/-! ### Names in lists -/

/-- What holds of the characters of a text but for the commas holds within its pieces. -/
theorem forall_of_mem_splitOn {P : Char → Prop} {cs piece : List Char}
    (each : ∀ c ∈ cs, c ≠ ',' → P c) (member : piece ∈ cs.splitOn ',') : ∀ c ∈ piece, P c := by
  induction cs generalizing piece with
  | nil =>
    rw [List.splitOn_nil, List.mem_singleton] at member
    simp [member]
  | cons c cs ih =>
    obtain ⟨here, later⟩ := List.forall_mem_cons.mp each
    rw [List.splitOn_cons_eq_if_modifyHead] at member
    split at member
    · rcases List.mem_cons.mp member with rfl | further
      · exact List.forall_mem_nil _
      · exact ih later further
    next other =>
      -- The character joins the first piece, and is not a comma.
      cases pieces : cs.splitOn ',' with
      | nil => exact absurd pieces (List.splitOn_ne_nil _ _)
      | cons first rest =>
        rw [pieces] at member ih
        rcases List.mem_cons.mp member with rfl | further
        · exact List.forall_mem_cons.mpr ⟨here (by simpa using other), ih later List.mem_cons_self⟩
        · exact ih later (List.mem_cons_of_mem _ further)

theorem comma_not_mem_of_mem_splitOn {cs piece : List Char} (member : piece ∈ cs.splitOn ',') :
    ',' ∉ piece :=
  fun comma => forall_of_mem_splitOn (fun _ _ other => other) member _ comma rfl

/-- A name as it comes out of a list. -/
structure Listed (c : String) : Prop where
  shown : c ≠ ""
  trimmed : trim c = c
  separate : ',' ∉ c.toList

theorem listed_of_mem {cs : List Char} {c : String} (member : c ∈ listedNames cs) : Listed c := by
  obtain ⟨shown, piece, inside, rfl⟩ := mem_listedNames.mp member
  refine ⟨shown, ?_, ?_⟩
  · simp [trim, trimChars_trimChars]
  · intro comma
    rw [String.toList_ofList] at comma
    exact comma_not_mem_of_mem_splitOn inside (mem_of_mem_trimChars comma)

theorem mem_channels_ofList {exclude : Bool} {names : List String} {c : String}
    (member : c ∈ (ofList exclude names).channels) : c ∈ names := by
  unfold ofList at member
  split at member
  next all =>
    cases exclude with
    | true => cases member
    | false =>
      rw [List.mem_singleton.mp member]
      exact List.contains_iff_mem.mp all
  · split at member
    · cases member
    · cases exclude <;> exact NameSet.mem_ofList.mp member

/-- The names of a set that an expression stands for come out of a list, unless there is nothing but
blanks in the expression. -/
theorem listed_of_mem_shown {expression c : String} (shown : trimChars expression.toList ≠ [])
    (member : c ∈ (parse expression).channels) : Listed c := by
  unfold parse ofTrimmed at member
  split at member
  · rw [List.mem_singleton.mp member]
    exact ⟨by decide, by decide, by decide⟩
  · split at member
    · cases member
    · split at member
      next blank => exact absurd blank shown
      · exact listed_of_mem (mem_channels_ofList member)
      · exact listed_of_mem (mem_channels_ofList member)

theorem listed_of_mem_parse {expression c : String}
    (member : c ∈ (parse expression).channels) : c = "" ∨ Listed c := by
  by_cases blank : trimChars expression.toList = []
  · rw [parse, blank] at member
    exact .inl (List.mem_singleton.mp member)
  · exact .inr (listed_of_mem_shown blank member)

/-- A set has the channels that it names, unless it names them to leave them out. -/
theorem contains_of_mem_channels {s : Channels} (heard : s.isExclude = false) {c : String}
    (member : c ∈ s.channels) : s.contains c = true := by
  cases s with
  | everywhere => rfl
  | among names => exact contains_among.mpr member
  | nowhere => cases heard
  | allBut names => cases heard

/-! ### What a name means -/

/-- The name is the mark for leaving out channels, alone or before the name for all of them. -/
def Silencing (c : String) : Prop := ∃ rest, c = "!" ++ rest ∧ (rest = "" ∨ trim rest = allChannels)

theorem parse_silencing {c : String} (silencing : Silencing c) : parse c = nowhere := by
  obtain ⟨rest, rfl, rfl | all⟩ := silencing
  · decide
  · have trimmed : trimChars rest.toList = allChannels.toList := by rw [← toList_trim, all]
    rw [parse_marked, ← listedNames_trimChars, trimmed]
    rfl

private theorem parse_listed_unmarked {c : String} (listed : Listed c)
    (unmarked : c.toList.head? ≠ some '!') : (parse c).contains c = true := by
  have itself : trimChars c.toList = c.toList := by rw [← toList_trim, listed.trimmed]
  have shown : trimChars c.toList ≠ [] := by
    rw [itself, ne_eq, String.toList_eq_nil_iff]
    exact listed.shown
  rw [parse_unmarked shown (itself.symm ▸ unmarked), ofList_contains]
  right
  -- The name has no comma in it, so it is the only piece.
  refine mem_listedNames.mpr ⟨listed.shown, c.toList, ?_, listed.trimmed⟩
  rw [List.splitOn_eq_singleton listed.separate]
  exact List.mem_singleton_self _

/-- What follows the mark in a name is not blank throughout. -/
private theorem shown_behind_mark {rest : String} (listed : Listed ("!" ++ rest))
    (more : rest ≠ "") : trim rest ≠ "" := by
  -- A rest of blanks would have been trimmed off behind the mark.
  intro blank
  have blanks : ∀ b ∈ rest.toList, isBlank b = true := by
    rw [← trimChars_eq_nil_iff, ← toList_trim, blank]
    rfl
  have kept : ('!' :: rest.toList).rdropWhile isBlank = '!' :: rest.toList := by
    have itself := congrArg String.toList listed.trimmed
    rw [toList_trim, String.toList_append, trimChars_eq] at itself
    exact itself
  rw [rdropWhile_cons (by decide), List.rdropWhile_eq_nil_iff.mpr blanks] at kept
  have nothing : rest.toList = [] := (List.cons.inj kept).2.symm
  exact more (String.toList_eq_nil_iff.mp nothing)

private theorem parse_listed_marked {rest : String} (listed : Listed ("!" ++ rest))
    (voiced : ¬ Silencing ("!" ++ rest)) :
    (parse ("!" ++ rest)).contains ("!" ++ rest) = true := by
  have separate : ',' ∉ rest.toList := by
    have apart := listed.separate
    rw [String.toList_append, List.mem_append, not_or] at apart
    exact apart.2
  have names {n : String} : n ∈ listedNames rest.toList ↔ n ≠ "" ∧ trim rest = n := by
    rw [mem_listedNames, List.splitOn_eq_singleton separate]
    simp [trim]
  have named : listedNames rest.toList ≠ [] := by
    have more : rest ≠ "" := fun nothing => voiced ⟨rest, rfl, .inl nothing⟩
    have shown := shown_behind_mark listed more
    exact List.ne_nil_of_mem (names.mpr ⟨shown, rfl⟩)
  rw [parse_marked, ofList_opposite named, Bool.not_eq_true', ← Bool.not_eq_true, ofList_contains,
    names, names]
  rintro (⟨-, all⟩ | ⟨-, itself⟩)
  · exact voiced ⟨rest, rfl, .inr all⟩
  · have shorter := length_trimChars_le rest.toList
    rw [← toList_trim, itself, String.toList_append, List.length_append] at shorter
    have mark : "!".toList.length = 1 := rfl
    omega

/-- A name that an expression yields has its channel among those that it stands for when it is
itself read as an expression, unless it stands for none. -/
theorem parse_named_contains {expression c : String} (named : c ∈ (parse expression).channels)
    (voiced : ¬ Silencing c) : (parse c).contains c = true := by
  rcases listed_of_mem_parse named with rfl | listed
  · decide
  · by_cases marked : c.toList.head? = some '!'
    · obtain ⟨rest, written⟩ := List.head?_eq_some_iff.mp marked
      have split : c = "!" ++ String.ofList rest := by
        rw [← String.toList_inj, written]
        simp
      rw [split] at listed voiced ⊢
      exact parse_listed_marked listed voiced
    · exact parse_listed_unmarked listed marked

end Channels
end Herald

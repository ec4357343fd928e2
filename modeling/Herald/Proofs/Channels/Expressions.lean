import Herald.Proofs.Channels.Sets
import Mathlib.Data.List.DropRight
import Mathlib.Data.List.TakeWhile

/-!
# What expressions mean

An expression is trimmed first, then cut at its commas, and each piece is trimmed in its turn. What
the first trimming takes away would have gone in the second, so an expression means what its pieces
mean: every channel if one of them is the name for all channels, else the channels that they name.
The mark for leaving out channels turns the meaning round. A list and its marked form are read by
one path, and the two expressions that are read by a shortcut mean the same on the long way.
-/
namespace Herald

/-! ### Trimming -/

namespace Text

theorem trimChars_eq (cs : List Char) :
    trimChars cs = (cs.dropWhile isBlank).rdropWhile isBlank := rfl

theorem trimChars_cons {b : Char} (blank : isBlank b = true) (cs : List Char) :
    trimChars (b :: cs) = trimChars cs := by
  simp [trimChars_eq, blank]

theorem trimChars_concat {b : Char} (blank : isBlank b = true) (cs : List Char) :
    trimChars (cs ++ [b]) = trimChars cs := by
  rw [trimChars_eq, trimChars_eq, List.dropWhile_append]
  split
  next allBlank =>
    rw [List.isEmpty_iff.mp allBlank]
    simp [blank]
  · exact List.rdropWhile_concat_pos isBlank _ b blank

/-- Trimming at the end stops short of a character that is not blank. -/
theorem rdropWhile_cons {a : Char} (shown : isBlank a = false) (cs : List Char) :
    (a :: cs).rdropWhile isBlank = a :: cs.rdropWhile isBlank := by
  induction cs using List.reverseRecOn with
  | nil => simp [List.rdropWhile_singleton, shown]
  | append_singleton cs b ih =>
    rw [← List.cons_append, List.rdropWhile_concat, List.rdropWhile_concat, ih]
    split
    · rfl
    · rfl

/-- A trimmed text begins with the first character that is not blank. -/
theorem head?_trimChars (cs : List Char) :
    (trimChars cs).head? = cs.find? fun c => !isBlank c := by
  induction cs with
  | nil => rfl
  | cons c cs ih =>
    cases blank : isBlank c with
    | true => simp [trimChars_cons blank, ih, blank]
    | false =>
      rw [trimChars_eq, List.dropWhile_cons_of_neg (by simp [blank]), rdropWhile_cons blank]
      simp [blank]

end Text

namespace Channels

open Text

/-! ### Pieces -/

private theorem comma_shown : isBlank ',' = false := by decide

private theorem mark_shown : isBlank '!' = false := by decide

private theorem ne_comma_of_blank {c : Char} (blank : isBlank c = true) : c ≠ ',' := by
  rintro rfl
  rw [comma_shown] at blank
  cases blank

private theorem splitOn_concat {b : Char} (other : b ≠ ',') (cs : List Char) :
    ∃ front last, cs.splitOn ',' = front ++ [last] ∧
      (cs ++ [b]).splitOn ',' = front ++ [last ++ [b]] := by
  induction cs with
  | nil => exact ⟨[], [], rfl, List.splitOn_eq_singleton (by simpa using other.symm)⟩
  | cons c cs ih =>
    obtain ⟨front, last, before, after⟩ := ih
    rw [List.cons_append, List.splitOn_cons_eq_if_modifyHead, List.splitOn_cons_eq_if_modifyHead,
      before, after]
    by_cases comma : c = ','
    · exact ⟨[] :: front, last, by simp [comma], by simp [comma]⟩
    · -- The character joins the first piece, which may be the last one as well.
      cases front with
      | nil => exact ⟨[], c :: last, by simp [comma], by simp [comma]⟩
      | cons first rest => exact ⟨(c :: first) :: rest, last, by simp [comma], by simp [comma]⟩

private theorem pieces_dropWhile (cs : List Char) :
    ((cs.dropWhile isBlank).splitOn ',').map trimChars = (cs.splitOn ',').map trimChars := by
  induction cs with
  | nil => rfl
  | cons c cs ih =>
    cases blank : isBlank c with
    | false => rw [List.dropWhile_cons_of_neg (by simp [blank])]
    | true =>
      rw [List.dropWhile_cons_of_pos blank, ih]
      -- A blank in front joins the first piece, and is trimmed off there.
      have other := ne_comma_of_blank blank
      rw [List.splitOn_cons_eq_if_modifyHead, if_neg (by simpa using other)]
      cases pieces : cs.splitOn ',' with
      | nil => exact absurd pieces (List.splitOn_ne_nil _ _)
      | cons first rest => simp [trimChars_cons blank]

private theorem pieces_rdropWhile (cs : List Char) :
    ((cs.rdropWhile isBlank).splitOn ',').map trimChars = (cs.splitOn ',').map trimChars := by
  induction cs using List.reverseRecOn with
  | nil => rfl
  | append_singleton cs b ih =>
    rw [List.rdropWhile_concat]
    split
    next blank =>
      obtain ⟨front, last, before, after⟩ := splitOn_concat (ne_comma_of_blank blank) cs
      rw [ih, before, after]
      simp [trimChars_concat blank]
    · rfl

/-- Blanks at the end of a list make no difference to its names. -/
theorem listedNames_rdropWhile (cs : List Char) :
    listedNames (cs.rdropWhile isBlank) = listedNames cs := by
  rw [listedNames, pieces_rdropWhile, listedNames]

theorem listedNames_trimChars (cs : List Char) :
    listedNames (trimChars cs) = listedNames cs := by
  rw [trimChars_eq, listedNames_rdropWhile, listedNames, pieces_dropWhile, listedNames]

/-! ### The two forms of an expression -/

/-- An expression that is not marked, nor all blank, is read as a list of channels to take in. -/
theorem parse_unmarked {e : String} (shown : trimChars e.toList ≠ [])
    (unmarked : (trimChars e.toList).head? ≠ some '!') :
    parse e = ofList false (listedNames e.toList) := by
  rw [← listedNames_trimChars, parse]
  unfold ofTrimmed
  split
  next all =>
    -- The shortcut for all channels comes to what the list of this one name means.
    rw [all]
    rfl
  · split
    next none =>
      rw [none] at unmarked
      exact absurd rfl unmarked
    · split
      next empty => exact absurd empty shown
      next rest marked =>
        rw [marked] at unmarked
        exact absurd rfl unmarked
      · rfl

/-- A marked expression is read as a list of channels to leave out. -/
theorem parse_marked (e : String) : parse ("!" ++ e) = ofList true (listedNames e.toList) := by
  have trimmed : trimChars ("!" ++ e).toList = '!' :: e.toList.rdropWhile isBlank := by
    rw [String.toList_append, trimChars_eq]
    change (List.dropWhile isBlank ('!' :: e.toList)).rdropWhile isBlank = _
    rw [List.dropWhile_cons_of_neg (by simp [mark_shown]), rdropWhile_cons mark_shown]
  rw [parse, trimmed, ← listedNames_rdropWhile]
  unfold ofTrimmed
  split
  next all => exact absurd (List.cons.inj all).1 (by decide)
  · split
    next none =>
      -- The shortcut for no channel comes to leaving out all of them.
      have rest : e.toList.rdropWhile isBlank = allChannels.toList := (List.cons.inj none).2
      rw [rest]
      rfl
    · rfl

/-! ### Members -/

theorem mem_listedNames {cs : List Char} {n : String} : n ∈ listedNames cs ↔
    n ≠ "" ∧ ∃ piece ∈ cs.splitOn ',', String.ofList (trimChars piece) = n := by
  simp only [listedNames, List.mem_map, List.mem_filter]
  constructor
  · rintro ⟨trimmed, ⟨⟨piece, member, rfl⟩, shown⟩, rfl⟩
    refine ⟨fun empty => ?_, piece, member, rfl⟩
    simp [String.ofList_eq_empty_iff.mp empty] at shown
  · rintro ⟨named, piece, member, rfl⟩
    refine ⟨trimChars piece, ⟨⟨piece, member, rfl⟩, ?_⟩, rfl⟩
    have shown : trimChars piece ≠ [] := fun empty => named (by rw [empty])
    simpa using shown

theorem ofList_contains {names : List String} {c : String} :
    (ofList false names).contains c = true ↔ allChannels ∈ names ∨ c ∈ names := by
  unfold ofList
  split
  next all => simp [List.contains_iff_mem.mp all]
  next notAll =>
    rw [List.contains_iff_mem] at notAll
    split
    next empty => simp [List.isEmpty_iff.mp empty]
    · simp [NameSet.mem_ofList, notAll]

/-- Leaving out what a list names is the opposite of taking it in. -/
theorem ofList_opposite {names : List String} (named : names ≠ []) (c : String) :
    (ofList true names).contains c = !(ofList false names).contains c := by
  unfold ofList
  split
  · rfl
  · split
    next empty => exact absurd (List.isEmpty_iff.mp empty) named
    · rfl

/-- Lists with the same names stand for the same set. -/
theorem ofList_congr {names others : List String} (same : ∀ n, n ∈ names ↔ n ∈ others)
    (exclude : Bool) : ofList exclude names = ofList exclude others := by
  apply eq_of_same_members (ofList_proper _ _) (ofList_proper _ _)
  intro c
  have plain : (ofList false names).contains c = (ofList false others).contains c := by
    rw [Bool.eq_iff_iff, ofList_contains, ofList_contains, same, same]
  cases exclude with
  | false => exact plain
  | true =>
    by_cases empty : names = []
    · -- Neither list has a name, so they are the same list.
      have emptyToo : others = [] := by
        rw [List.eq_nil_iff_forall_not_mem] at empty ⊢
        exact fun n member => empty n ((same n).mpr member)
      rw [empty, emptyToo]
    · have named : others ≠ [] := by
        obtain ⟨n, member⟩ := List.exists_mem_of_ne_nil _ empty
        exact List.ne_nil_of_mem ((same n).mp member)
      rw [ofList_opposite empty, ofList_opposite named, plain]

/-! ### Lists that are written out -/

/-- The entries of a list as it may be written: they hold no commas, not all of them are blank, and
the first does not begin with the mark for leaving out channels. -/
structure Writable (entries : List String) : Prop where
  separate : ∀ x ∈ entries, ',' ∉ x.toList
  named : ∃ x ∈ entries, trim x ≠ ""
  unmarked : ∀ x ∈ entries.head?, (trim x).toList.head? ≠ some '!'

def written (entries : List String) : String := ",".intercalate entries

variable {entries : List String}

theorem mem_names_written (writable : Writable entries) {n : String} :
    n ∈ listedNames (written entries).toList ↔ n ≠ "" ∧ ∃ x ∈ entries, trim x = n := by
  have pieces : (written entries).toList.splitOn ',' = entries.map String.toList := by
    rw [written, String.toList_intercalate]
    apply List.splitOn_intercalate
    · intro piece member
      obtain ⟨x, inside, rfl⟩ := List.mem_map.mp member
      exact writable.separate x inside
    · obtain ⟨x, inside, -⟩ := writable.named
      simpa using List.ne_nil_of_mem inside
  rw [mem_listedNames, pieces]
  simp [trim]

/-- What is written begins, but for blanks, with its first entry, or with a comma if that is
blank. -/
private theorem head_written (writable : Writable entries) :
    ∃ c, (trimChars (written entries).toList).head? = some c ∧ c ≠ '!' := by
  rw [head?_trimChars, written, String.toList_intercalate]
  obtain ⟨named, inside, shown⟩ := writable.named
  have unmarked := writable.unmarked
  cases entries with
  | nil => cases inside
  | cons first rest =>
    have head : first.toList.find? (fun c => !isBlank c) ≠ some '!' := by
      rw [← head?_trimChars, ← toList_trim]
      exact unmarked first rfl
    cases rest with
    | nil =>
      rw [List.mem_singleton.mp inside] at shown
      have some_head : (trim first).toList.head? ≠ none := by
        rw [ne_eq, List.head?_eq_none_iff, String.toList_eq_nil_iff]
        exact shown
      rw [toList_trim, head?_trimChars] at some_head
      obtain ⟨c, found⟩ := Option.ne_none_iff_exists'.mp some_head
      refine ⟨c, by simpa using found, ?_⟩
      rintro rfl
      exact head found
    | cons second others =>
      simp only [List.map_cons, List.intercalate_cons_cons, List.append_assoc, List.find?_append]
      cases found : first.toList.find? fun c => !isBlank c with
      | some c =>
        refine ⟨c, by simp, ?_⟩
        rintro rfl
        exact head found
      | none => exact ⟨',', by simp [comma_shown], by decide⟩

theorem parse_written (writable : Writable entries) :
    parse (written entries) = ofList false (listedNames (written entries).toList) := by
  obtain ⟨c, head, other⟩ := head_written writable
  apply parse_unmarked
  · intro empty
    rw [empty] at head
    cases head
  · rw [head]
    exact fun marked => other (Option.some.inj marked)

/-- A list stands for all channels if an entry says so, else for the channels it names, and its
marked form for the others. So nothing matters but which names there are. Two expressions stand for
equal sets if and only if the sets have the same channels. -/
theorem parse_written_contains :
    (∀ entries : List String, Writable entries → ∀ c : String,
      ((parse (written entries)).contains c = true ↔
        (∃ x ∈ entries, trim x = allChannels) ∨ c ≠ "" ∧ ∃ x ∈ entries, trim x = c) ∧
      (parse ("!" ++ written entries)).contains c = !(parse (written entries)).contains c) ∧
    (∀ entries others : List String, Writable entries → Writable others →
      (∀ n, n ≠ "" → ((∃ x ∈ entries, trim x = n) ↔ ∃ x ∈ others, trim x = n)) →
      parse (written entries) = parse (written others) ∧
        parse ("!" ++ written entries) = parse ("!" ++ written others)) ∧
    (∀ e₁ e₂ : String, parse e₁ = parse e₂ ↔
      ∀ c, (parse e₁).contains c = (parse e₂).contains c) := by
  refine ⟨fun entries writable c => ⟨?_, ?_⟩, fun entries others first second same => ?_,
    fun e₁ e₂ => ⟨fun equal c => by rw [equal], ?_⟩⟩
  · have all : allChannels ≠ "" := by decide
    rw [parse_written writable, ofList_contains, mem_names_written writable,
      mem_names_written writable]
    simp only [all, ne_eq, not_false_eq_true, true_and]
  · have listed : listedNames (written entries).toList ≠ [] := by
      obtain ⟨x, inside, shown⟩ := writable.named
      exact List.ne_nil_of_mem ((mem_names_written writable).mpr ⟨shown, x, inside, rfl⟩)
    rw [parse_marked, parse_written writable, ofList_opposite listed]
  · have names (n : String) : n ∈ listedNames (written entries).toList ↔
        n ∈ listedNames (written others).toList := by
      rw [mem_names_written first, mem_names_written second]
      exact and_congr_right (same n)
    rw [parse_marked, parse_marked, parse_written first, parse_written second]
    exact ⟨ofList_congr names false, ofList_congr names true⟩
  · exact eq_of_same_members (parse_proper e₁) (parse_proper e₂)

/-- A list with blanks around its names, one of them a no-break space, a blank entry, and an entry
that begins with the mark but is not the first. -/
def guestList : List String := [" guests", "\u00a0", "!staff ", "guests"]

theorem parse_written_contains_guestList : Writable guestList ∧
    ((parse (written guestList)).contains "!staff" = true ↔
      (∃ x ∈ guestList, trim x = allChannels) ∨
        "!staff" ≠ "" ∧ ∃ x ∈ guestList, trim x = "!staff") ∧
    (parse ("!" ++ written guestList)).contains "!staff" = false := by
  have writable : Writable guestList := ⟨by decide, by decide, by decide⟩
  obtain ⟨meaning, opposite⟩ := parse_written_contains.1 guestList writable "!staff"
  refine ⟨writable, meaning, ?_⟩
  rw [opposite, meaning.mpr (.inr ⟨by decide, "!staff ", by decide, by decide⟩)]
  rfl

end Channels
end Herald

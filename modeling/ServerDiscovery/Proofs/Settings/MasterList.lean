import ServerDiscovery.Settings.Environment

/-! # Lists of directories in a variable

A list is cut at its commas, the blanks around each piece are dropped, and so is a piece of which
nothing is left.  So the entries are always clean (`clean_of_mem_masterList`), and a list of clean
entries is read back from what it is joined to (`masterList_intercalate`): to read a list, join what
was read and read it again changes nothing.  A comma between two lists makes one list of both
(`masterList_append`), whatever stands next to it.
-/

namespace ServerDiscovery

namespace Blank

variable {cs : List Char} {c : Char}

/-- No blank stands at either end. -/
structure Tight (cs : List Char) : Prop where
  head : ∀ c, cs.head? = some c → isBlank c = false
  last : ∀ c, cs.getLast? = some c → isBlank c = false

theorem trimEnds_sublist (cs : List Char) : (trimEnds cs).Sublist cs := by
  have hend : (cs.dropWhile isBlank).reverse.dropWhile isBlank |>.Sublist
      (cs.dropWhile isBlank).reverse := List.dropWhile_sublist _
  have hreverse := hend.reverse
  rw [List.reverse_reverse] at hreverse
  exact hreverse.trans (List.dropWhile_sublist _)

theorem not_isBlank_of_head?_dropWhile (h : (cs.dropWhile isBlank).head? = some c) :
    isBlank c = false := by
  have hhead := List.head?_dropWhile_not isBlank cs
  rw [h] at hhead
  exact hhead

theorem dropWhile_isBlank_eq_self (h : ∀ c, cs.head? = some c → isBlank c = false) :
    cs.dropWhile isBlank = cs := by
  cases cs with
  | nil => rfl
  | cons c cs => exact List.dropWhile_cons_of_neg (Bool.eq_false_iff.mp (h c rfl))

/-- Trimming leaves no blank at either end. -/
theorem tight_trimEnds (cs : List Char) : Tight (trimEnds cs) where
  head c h := by
    -- what is left of the end is a front of what is left of the front
    obtain ⟨blanks, hblanks⟩ := List.dropWhile_suffix isBlank (l := (cs.dropWhile isBlank).reverse)
    have hfront : trimEnds cs ++ blanks.reverse = cs.dropWhile isBlank := by
      rw [trimEnds, ← List.reverse_append, hblanks, List.reverse_reverse]
    have hhead : (cs.dropWhile isBlank).head? = some c := by
      rw [← hfront, List.head?_append, h]
      rfl
    exact not_isBlank_of_head?_dropWhile hhead
  last c h := by
    rw [trimEnds, List.getLast?_reverse] at h
    exact not_isBlank_of_head?_dropWhile h

/-- Trimming changes nothing where there is no blank at an end. -/
theorem trimEnds_eq_self (h : Tight cs) : trimEnds cs = cs := by
  have hlast : ∀ c, cs.reverse.head? = some c → isBlank c = false := by
    intro c hc
    rw [List.head?_reverse] at hc
    exact h.last c hc
  rw [trimEnds, dropWhile_isBlank_eq_self h.head, dropWhile_isBlank_eq_self hlast,
    List.reverse_reverse]

end Blank

namespace Environment

variable {cs piece : List Char} {text entry : String} {entries : List String}

/-! ## 1. Pieces -/

/-- A list is cut at its commas and nowhere else. -/
theorem splitAtCommas_eq_splitOn (cs : List Char) : splitAtCommas cs = cs.splitOn ',' := by
  induction cs with
  | nil => rfl
  | cons c cs ih =>
    rw [splitAtCommas, ih, List.splitOn_cons_eq_if_modifyHead]
    by_cases hcomma : c = ','
    · simp [hcomma]
    · rw [if_neg hcomma, if_neg fun heq => hcomma (beq_iff_eq.mp heq)]
      cases hrest : cs.splitOn ',' with
      | nil => exact (List.splitOn_ne_nil _ _ hrest).elim
      | cons piece rest => rfl

theorem not_mem_of_mem_splitOn (h : piece ∈ cs.splitOn ',') : ',' ∉ piece := by
  induction cs generalizing piece with
  | nil =>
    obtain rfl : piece = [] := List.mem_singleton.mp h
    exact List.not_mem_nil
  | cons c cs ih =>
    rw [List.splitOn_cons_eq_if_modifyHead] at h
    by_cases hcomma : c = ','
    · rw [if_pos (beq_iff_eq.mpr hcomma), List.mem_cons] at h
      rcases h with rfl | hrest
      · exact List.not_mem_nil
      · exact ih hrest
    · rw [if_neg fun heq => hcomma (beq_iff_eq.mp heq)] at h
      cases hsplit : cs.splitOn ',' with
      | nil => exact (List.splitOn_ne_nil _ _ hsplit).elim
      | cons first rest =>
        rw [hsplit] at ih
        rw [hsplit, List.modifyHead_cons] at h
        rcases List.mem_cons.mp h with rfl | hrest
        · rw [List.mem_cons, not_or]
          exact ⟨Ne.symm hcomma, ih List.mem_cons_self⟩
        · exact ih (List.mem_cons_of_mem _ hrest)

/-! ## 2. Entries -/

/-- An entry of a list as it should be: it is not empty, has no comma in it and no blank at either
end. -/
structure Clean (entry : String) : Prop where
  ne_empty : entry ≠ ""
  no_comma : ',' ∉ entry.toList
  tight : Blank.Tight entry.toList

theorem masterList_eq (text : String) :
    masterList text =
      (((text.toList.splitOn ',').map Blank.trimEnds).filter (!·.isEmpty)).map String.ofList := by
  rw [masterList, splitAtCommas_eq_splitOn]

/-- **Every entry that is read is clean.** -/
theorem clean_of_mem_masterList (h : entry ∈ masterList text) : Clean entry := by
  rw [masterList_eq, List.mem_map] at h
  obtain ⟨cs, hcs, rfl⟩ := h
  obtain ⟨hmem, hne⟩ := List.mem_filter.mp hcs
  obtain ⟨piece, hpiece, rfl⟩ := List.mem_map.mp hmem
  refine ⟨?_, ?_, ?_⟩
  · intro hempty
    rw [← String.toList_inj, String.toList_ofList] at hempty
    rw [hempty] at hne
    cases hne
  · rw [String.toList_ofList]
    intro hcomma
    exact not_mem_of_mem_splitOn hpiece ((Blank.trimEnds_sublist piece).mem hcomma)
  · rw [String.toList_ofList]
    exact Blank.tight_trimEnds piece

/-- **Two lists with a comma between them are read one after the other.** -/
theorem masterList_append (a b : String) :
    masterList (a ++ "," ++ b) = masterList a ++ masterList b := by
  have hcomma : (a ++ "," ++ b).toList = a.toList ++ ',' :: b.toList := by
    rw [String.toList_append, String.toList_append, List.append_assoc]
    rfl
  rw [masterList_eq, masterList_eq a, masterList_eq b, hcomma, List.splitOn_append_cons_self,
    List.map_append, List.filter_append, List.map_append]

/-- **Clean entries are read back from what they are joined to.** -/
theorem masterList_intercalate (h : ∀ entry ∈ entries, Clean entry) :
    masterList (",".intercalate entries) = entries := by
  by_cases hnil : entries = []
  · subst hnil
    rfl
  · have hpieces : (",".intercalate entries).toList.splitOn ',' = entries.map String.toList := by
      rw [String.toList_intercalate]
      refine List.splitOn_intercalate ',' ?_ (by simpa using hnil)
      intro piece hpiece
      obtain ⟨entry, hentry, rfl⟩ := List.mem_map.mp hpiece
      exact (h entry hentry).no_comma
    have htrimmed : (entries.map String.toList).map Blank.trimEnds = entries.map String.toList := by
      rw [List.map_map]
      refine List.map_congr_left fun entry hentry => ?_
      exact Blank.trimEnds_eq_self (h entry hentry).tight
    have hkept : (entries.map String.toList).filter (!·.isEmpty) = entries.map String.toList := by
      rw [List.filter_eq_self]
      intro piece hpiece
      obtain ⟨entry, hentry, rfl⟩ := List.mem_map.mp hpiece
      simpa using (h entry hentry).ne_empty
    rw [masterList_eq, hpieces, htrimmed, hkept, List.map_map]
    simp

end Environment

end ServerDiscovery

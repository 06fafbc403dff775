import Telefile.Proofs.Lookup.Compare

/-!
# Lookups one name further

What a path leads to is looked up again when the path goes on by a name. Where the path leads to a
directory, that is one more step from there: the links that were followed on the way are spent, and
a directory needs none.

* `Walks.exists_left` — a way to a directory, and the lookups that go on from it;
* `walk_directory` — the last step to a directory, with any number of links left;
* **`lookup_join`** — a directory is looked up by its path as it is from the directory above it;
* `lookup_directory` — and is found so.
-/

namespace Telefile

namespace Host

section Below

variable {h : Host} {links : Nat} {here : Location} {slash : Bool} {names : List Name}
  {a : Arrival} {l : Location} {p : Perms} {t : Timestamp}

/-- **A lookup that goes on from a directory** is one more step from it, with the links that the way
to it has left. -/
theorem Walks.exists_left (hw : h.Walks .follow links here slash names a)
    (ha : a = .found l (.directory p t)) :
    ∃ left, ∀ n,
      h.walk .follow links here false (names ++ [n]) = h.walk .follow left l false [n] := by
  have hbehind : ∀ {m : Name} {slash : Bool} {rest : List Name}, Taken .follow slash m rest →
      ∀ n, Taken .follow false m (rest ++ [n]) := fun hm n => hm.change rfl false (_ ++ [n])
  induction hw with
  | @done links here slash e he =>
    cases ha
    exact ⟨links, fun n => rfl⟩
  | dot hpass _ ih =>
    obtain ⟨left, hleft⟩ := ih ha
    exact ⟨left, fun n => (walk_dot hpass).trans (hleft n)⟩
  | up hpass _ ih =>
    obtain ⟨left, hleft⟩ := ih ha
    exact ⟨left, fun n => (walk_dotdot hpass).trans (hleft n)⟩
  | vacant _ _ _ => cases ha
  | stop _ _ _ hlast => cases hlast
  | @link links here slash m rest target t' a hpass hm he _ _ ih =>
    obtain ⟨left, hleft⟩ := ih ha
    refine ⟨left, fun n => ?_⟩
    have hslash : (false || (decide (rest ++ [n] = []) && target.endsInSlash)) = false := by simp
    rw [List.cons_append, walk_taken hpass (hbehind hm n), he]
    dsimp only
    rw [if_neg follow_never_stops, hslash, ← List.append_assoc]
    exact hleft n
  | @reach links here slash m e hpass hm he _ _ =>
    cases ha
    refine ⟨links, fun n => ?_⟩
    have htaken : Taken .follow false m [n] := hbehind hm n
    rw [List.singleton_append, walk_taken hpass htaken, he]
    exact if_neg (List.cons_ne_nil n [])
  | @down links here slash m rest p' t' a hpass hm he _ _ ih =>
    obtain ⟨left, hleft⟩ := ih ha
    refine ⟨left, fun n => ?_⟩
    have hne : rest ++ [n] ≠ [] := by simp
    rw [List.cons_append, walk_taken hpass (hbehind hm n), he]
    dsimp only
    rw [if_neg hne]
    exact hleft n

/-- The step to a directory follows no link, and so does not ask how many are left. -/
theorem walk_directory {n : Name} (hn : n.Proper)
    (he : h.entryAt? (l ++ [n]) = some (.directory p t)) (links left : Nat) :
    h.walk .follow links l false [n] = h.walk .follow left l false [n] := by
  rw [walk.eq_def, walk.eq_def h .follow left]
  simp only [he, if_neg hn.not_dot, if_neg hn.not_dotdot, if_true]

end Below

/-- **A directory is looked up by its path** as it is from the directory above it. -/
theorem lookup_join {h : Host} {p : Path} {l : Location} {n : Name} {perms perms' : Perms}
    {t t' : Timestamp} (hl : h.lookup .follow p = .ok (l, .directory perms t)) (hn : n.Proper)
    (he : h.entryAt? (l ++ [n]) = some (.directory perms' t')) :
    h.lookup .follow (p.join [n]) = h.lookupIn l n (p.join [n]) := by
  obtain ⟨⟨-, hne, -⟩, hw⟩ := arrive_eq_ok_iff.mp (lookup_eq_ok_iff.mp hl)
  obtain ⟨left, hleft⟩ := hw.exists_left rfl
  have hwalk : h.walk .follow maxLinks (if p.isAbsolute then [] else h.cwd) false (p.names ++ [n]) =
      h.walk .follow maxLinks l false [n] := (hleft n).trans (walk_directory hn he left maxLinks)
  have hlong := Path.length_lt_join (p := p) hn
  have htext : (p.join [n]).text ≠ [] := List.length_pos_iff.mp (Nat.zero_lt_of_lt hlong)
  unfold lookup arrive lookupIn
  rw [Path.isAbsolute_join hne, Path.endsInSlash_join hne hn,
    Path.names_join hne (Location.proper_singleton hn) (List.cons_ne_nil n []), hwalk,
    if_neg htext]
  by_cases hnul : 0 ∈ (p.join [n]).text
  · rw [if_pos hnul, if_pos hnul]
  rw [if_neg hnul, if_neg hnul]
  by_cases hmax : maxPath < (p.join [n]).text.length
  · rw [if_pos hmax, if_pos hmax]
  · rw [if_neg hmax, if_neg hmax]

/-- A directory in one that may be searched is found, if its name and its path are not too long. -/
theorem lookup_directory {h : Host} {p : Path} {l : Location} {n : Name} {perms perms' : Perms}
    {t t' : Timestamp} (hl : h.lookup .follow p = .ok (l, .directory perms t)) (hn : n.Proper)
    (he : h.entryAt? (l ++ [n]) = some (.directory perms' t'))
    (hsearch : perms.allows .search = true) (hname : n.length ≤ maxName)
    (hnul : 0 ∉ (p.join [n]).text) (hlength : (p.join [n]).text.length ≤ maxPath) :
    h.lookup .follow (p.join [n]) = .ok (l ++ [n], .directory perms' t') := by
  have hpass : h.pass l = .ok () :=
    (pass_of_directory (entryAt?_of_lookup hl)).trans (if_pos hsearch)
  have hw : h.walk .follow maxLinks l false [n] =
      .ok (.found (l ++ [n]) (.directory perms' t')) :=
    walk_eq_ok_iff.mpr
      (.reach hpass ⟨hn.not_dot, hn.not_dotdot, follow_never_refused, hname⟩ he rfl (.inl rfl))
  rw [lookup_join hl hn he]
  unfold lookupIn
  rw [if_neg hnul, if_neg (Nat.not_lt_of_le hlength), hw]

end Host

end Telefile

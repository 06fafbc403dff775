import Telefile.Proofs.Lookup.Compare

/-!
# Lookups in a tree that changes

A way passes directories and links only. So a way to a directory stays where the directories and
the links that it passes stay, whatever becomes of files; and a way to a vacant name leads to the
file once it is there.

* `Host.WaysIn` — every directory and every link of one host is in another;
* **`Walks.transfer`** — a way to a directory is then a way in the other host;
* `Walks.created` — a way to what has been created.
-/

namespace Telefile

namespace Host

/-- Every directory and every link of `h` is in `h'`; the times of directories do not matter. -/
structure WaysIn (h h' : Host) : Prop where
  directory : ∀ {l p t}, h.entryAt? l = some (.directory p t) →
    ∃ t', h'.entryAt? l = some (.directory p t')
  link : ∀ {l target t}, h.entryAt? l = some (.symlink target t) →
    h'.entryAt? l = some (.symlink target t)

section Ways

variable {h h' : Host} {links : Nat} {here : Location} {slash : Bool} {names : List Name}
  {a : Arrival}

theorem WaysIn.trans {h'' : Host} (hfirst : h.WaysIn h') (hsecond : h'.WaysIn h'') :
    h.WaysIn h'' where
  directory he := by
    obtain ⟨t', he'⟩ := hfirst.directory he
    exact hsecond.directory he'
  link he := hsecond.link (hfirst.link he)

theorem WaysIn.pass (hways : h.WaysIn h') {l : Location} (hpass : h.pass l = .ok ()) :
    h'.pass l = .ok () := by
  obtain ⟨p, t, he⟩ := isDirectory_of_pass hpass
  obtain ⟨t', he'⟩ := hways.directory he
  exact (pass_congr he' he).trans hpass

/-- **A way to a directory is a way in every host with the same directories and links.** -/
theorem Walks.transfer (hways : h.WaysIn h') (hw : h.Walks .follow links here slash names a)
    {l : Location} {p : Perms} {t : Timestamp} (ha : a = .found l (.directory p t)) :
    ∃ t', h'.Walks .follow links here slash names (.found l (.directory p t')) := by
  induction hw with
  | done he =>
    cases ha
    obtain ⟨t', he'⟩ := hways.directory he
    exact ⟨t', .done he'⟩
  | dot hpass _ ih =>
    obtain ⟨t', hrest⟩ := ih ha
    exact ⟨t', .dot (hways.pass hpass) hrest⟩
  | up hpass _ ih =>
    obtain ⟨t', hrest⟩ := ih ha
    exact ⟨t', .up (hways.pass hpass) hrest⟩
  | vacant _ _ _ => cases ha
  | stop _ _ _ hlast => cases hlast
  | link hpass hn he hgo _ ih =>
    obtain ⟨t', hrest⟩ := ih ha
    exact ⟨t', .link (hways.pass hpass) hn (hways.link he) hgo hrest⟩
  | reach hpass hn he hlink hdir =>
    cases ha
    obtain ⟨t', he'⟩ := hways.directory he
    exact ⟨t', .reach (hways.pass hpass) hn he' rfl (.inl rfl)⟩
  | down hpass hn he hne _ ih =>
    obtain ⟨t', hrest⟩ := ih ha
    obtain ⟨t'', he'⟩ := hways.directory he
    exact ⟨t', .down (hways.pass hpass) hn he' hne hrest⟩

/-- A way to a vacant name leads to the file that is created there. -/
theorem Walks.created (hways : h.WaysIn h') {exclusive : Bool}
    (hw : h.Walks (.create exclusive) links here slash names a) {dir : Location} {n : Name}
    (ha : a = .vacant dir n) {id : FileId} (hnew : h'.entryAt? (dir ++ [n]) = some (.file id)) :
    h'.Walks .follow links here slash names (.found (dir ++ [n]) (.file id)) := by
  induction hw with
  | done _ => cases ha
  | dot hpass _ ih => exact .dot (hways.pass hpass) (ih ha)
  | up hpass _ ih => exact .up (hways.pass hpass) (ih ha)
  | @vacant links here slash n hpass hn _ =>
    cases ha
    have hslash : slash = false := by
      cases hs : slash with
      | false => rfl
      | true => exact absurd ⟨rfl, hs, rfl⟩ hn.not_refused
    exact .reach (hways.pass hpass) (hn.change rfl _ _) hnew rfl (.inr hslash)
  | stop _ _ _ _ => cases ha
  | link hpass hn he _ _ ih =>
    exact .link (hways.pass hpass) (hn.change rfl _ _) (hways.link he)
      (fun hand => by cases hand.2.2) (ih ha)
  | reach _ _ _ _ _ => cases ha
  | down hpass hn he hne _ ih =>
    obtain ⟨t', he'⟩ := hways.directory he
    exact .down (hways.pass hpass) (hn.change rfl _ _) he' hne (ih ha)

variable {p : Path} {l : Location}

theorem lookup_transfer (hways : h.WaysIn h') (hcwd : h'.cwd = h.cwd) {perms : Perms}
    {t : Timestamp} (hl : h.lookup .follow p = .ok (l, .directory perms t)) :
    ∃ t', h'.lookup .follow p = .ok (l, .directory perms t') := by
  obtain ⟨hwritable, hw⟩ := arrive_eq_ok_iff.mp (lookup_eq_ok_iff.mp hl)
  obtain ⟨t', hw'⟩ := hw.transfer hways rfl
  rw [← hcwd] at hw'
  exact ⟨t', lookup_eq_ok_iff.mpr (arrive_eq_ok_iff.mpr ⟨hwritable, hw'⟩)⟩

theorem lookup_created (hways : h.WaysIn h') (hcwd : h'.cwd = h.cwd) {exclusive : Bool}
    {dir : Location} {n : Name} (harrive : h.arrive (.create exclusive) p = .ok (.vacant dir n))
    {id : FileId} (hnew : h'.entryAt? (dir ++ [n]) = some (.file id)) :
    h'.lookup .follow p = .ok (dir ++ [n], .file id) := by
  obtain ⟨hwritable, hw⟩ := arrive_eq_ok_iff.mp harrive
  have hw' := hw.created hways rfl hnew
  rw [← hcwd] at hw'
  exact lookup_eq_ok_iff.mpr (arrive_eq_ok_iff.mpr ⟨hwritable, hw'⟩)

end Ways

end Host

end Telefile

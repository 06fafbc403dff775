import Mathlib.Data.List.Induction
import Telefile.Host.Calls
import Telefile.Proofs.Lookup.Ways

/-!
# Changes beneath a directory

What a service does to a tree adds files, removes files and links, and writes to files. Done
beneath a directory, that leaves everything outside as it was, and no directory comes or goes.

* `Host.WellFormed` — what makes a tree: proper names, each entry in a directory;
* `Host.Confined top h h'` — `h'` came out of `h` by changes beneath `top`;
* `Confined.change` — what may happen to one entry; `Confined.touch`, `Confined.addFile`,
  `Confined.eraseEntry`, `Confined.setFile` — each change;
* `createPath_ok`, `removePath_ok`, `openPath_ok` — what the service asks of the host;
* **`Confined.createFile`**, **`Confined.removeEntry`**, **`Confined.writeAt`** — what comes of it.
-/

namespace Telefile

namespace Host

/-! ## 1. Trees -/

/-- What makes a tree: names are proper, and what has a name is in a directory. -/
structure WellFormed (h : Host) : Prop where
  proper : ∀ {l e}, h.entryAt? l = some e → Location.Proper l
  parent : ∀ {l n e}, h.entryAt? (l ++ [n]) = some e →
    ∃ p t, h.entryAt? l = some (.directory p t)

theorem isDirectory_iff {h : Host} {l : Location} :
    (h.entryAt? l).any Entry.isDir = true ↔ ∃ p t, h.entryAt? l = some (.directory p t) := by
  rcases h.entryAt? l with _ | ⟨p, t⟩ | ⟨target, t⟩ | id | d
  · exact ⟨fun he => (by cases he), fun ⟨_, _, he⟩ => (by cases he)⟩
  · exact ⟨fun _ => ⟨p, t, rfl⟩, fun _ => rfl⟩
  all_goals exact ⟨fun he => (by cases he), fun ⟨_, _, he⟩ => (by cases he)⟩

/-- Whether a host is a tree can be read off its entries. -/
theorem wellFormed_iff {h : Host} : h.WellFormed ↔ ∀ x ∈ h.allEntries,
    Location.Proper x.1 ∧ (x.1 = [] ∨ (h.entryAt? x.1.dropLast).any Entry.isDir = true) := by
  constructor
  · rintro hw ⟨l, e⟩ hx
    have he := mem_allEntries_iff.mp hx
    refine ⟨hw.proper he, ?_⟩
    rcases List.eq_nil_or_concat l with hnil | ⟨m, n, hl⟩
    · exact .inl hnil
    · rw [List.concat_eq_append] at hl
      subst hl
      dsimp only
      rw [List.dropLast_concat, isDirectory_iff]
      exact .inr (hw.parent he)
  · intro hall
    refine ⟨fun {l e} he => (hall (l, e) (mem_allEntries_iff.mpr he)).1, fun {l n e} he => ?_⟩
    rcases (hall (l ++ [n], e) (mem_allEntries_iff.mpr he)).2 with hnil | hdir
    · exact absurd hnil (by simp)
    · dsimp only at hdir
      rw [List.dropLast_concat, isDirectory_iff] at hdir
      exact hdir

instance (h : Host) : Decidable h.WellFormed := decidable_of_iff _ wellFormed_iff.symm

theorem WellFormed.directory_of_prefix {h : Host} (hw : h.WellFormed) {l m : Location}
    (hdir : ∃ p t, h.entryAt? l = some (.directory p t)) (hup : m <+: l) :
    ∃ p t, h.entryAt? m = some (.directory p t) := by
  obtain ⟨more, rfl⟩ := hup
  induction more using List.reverseRecOn with
  | nil =>
    rw [List.append_nil] at hdir
    exact hdir
  | append_singleton more n ih =>
    obtain ⟨p, t, he⟩ := hdir
    rw [← List.append_assoc] at he
    exact ih (hw.parent he)

/-! ## 2. Single changes -/

section Single

variable (h : Host) (l m : Location)

theorem entryAt?_touch : (h.touch l).entryAt? m = h.entryAt? m ∨
    ∃ p t, m = l ∧ h.entryAt? l = some (.directory p t) ∧
      (h.touch l).entryAt? m = some (.directory p h.now) := by
  unfold touch
  split
  · next p t he =>
    rw [entryAt?_setEntry]
    by_cases hm : m = l
    · exact .inr ⟨p, t, hm, he, if_pos hm⟩
    · exact .inl (if_neg hm)
  · exact .inl rfl

theorem files_touch : (h.touch l).files = h.files := by
  unfold touch
  split <;> rfl

theorem cwd_touch : (h.touch l).cwd = h.cwd := by
  unfold touch
  split <;> rfl

theorem entryAt?_addFile : (h.addFile l).2.entryAt? m =
    if m = l then some (.file h.files.length) else h.entryAt? m :=
  entryAt?_setEntry h l m (.file h.files.length)

/-- A directory that is touched still is one, with the same permissions. -/
theorem waysIn_touch : h.WaysIn (h.touch l) where
  directory {m p t} he := by
    rcases h.entryAt?_touch l m with hsame | ⟨p', t', rfl, he', hnew⟩
    · exact ⟨t, hsame.trans he⟩
    · obtain ⟨rfl, -⟩ := Entry.directory.inj (Option.some.inj (he'.symm.trans he))
      exact ⟨h.now, hnew⟩
  link {m target t} he := by
    rcases h.entryAt?_touch l m with hsame | ⟨p, t', rfl, he', -⟩
    · exact hsame.trans he
    · rw [he'] at he
      cases he

theorem waysIn_addFile (hvacant : h.entryAt? l = none) : h.WaysIn (h.addFile l).2 where
  directory {m p t} he := by
    have hne : m ≠ l := by
      rintro rfl
      rw [hvacant] at he
      cases he
    rw [entryAt?_addFile, if_neg hne]
    exact ⟨t, he⟩
  link {m target t} he := by
    have hne : m ≠ l := by
      rintro rfl
      rw [hvacant] at he
      cases he
    rw [entryAt?_addFile, if_neg hne]
    exact he

end Single

/-! ## 3. Changes beneath a directory -/

/-- `h'` came out of `h` by changes beneath `top`: outside, entries are what they were; directories
neither come nor go, and links do not come; a file has a name it did not have only if it is new; and
a file that had no name beneath `top` has its bytes. -/
structure Confined (top : Location) (h h' : Host) : Prop where
  outside : ∀ {l}, ¬ top <+: l → h'.entryAt? l = h.entryAt? l
  directory : ∀ {l p t}, h.entryAt? l = some (.directory p t) →
    ∃ t', h'.entryAt? l = some (.directory p t')
  ways : h'.WaysIn h
  cwd : h'.cwd = h.cwd
  named : ∀ {l id}, h'.entryAt? l = some (.file id) →
    h.entryAt? l = some (.file id) ∨ h.files.length ≤ id
  longer : h.files.length ≤ h'.files.length
  bytes : ∀ {id}, id < h.files.length → (∀ l, top <+: l → h.entryAt? l ≠ some (.file id)) →
    h'.file? id = h.file? id

/-- The file `id` is new, or had a name beneath `top` at first. -/
def Open (top : Location) (h : Host) (id : FileId) : Prop :=
  h.files.length ≤ id ∨ ∃ l, top <+: l ∧ h.entryAt? l = some (.file id)

namespace Confined

variable {top : Location} {h h' : Host}

theorem refl (top : Location) (h : Host) : Confined top h h where
  outside _ := rfl
  directory he := ⟨_, he⟩
  ways := ⟨fun he => ⟨_, he⟩, fun he => he⟩
  cwd := rfl
  named he := .inl he
  longer := Nat.le_refl _
  bytes _ _ := rfl

/-- What has a name beneath `top` is open to changes. -/
theorem open_of_named (hc : Confined top h h') {l : Location} {id : FileId} (hl : top <+: l)
    (he : h'.entryAt? l = some (.file id)) : Open top h id := by
  rcases hc.named he with he' | hnew
  · exact .inr ⟨l, hl, he'⟩
  · exact .inl hnew

theorem touch (hc : Confined top h h') {l : Location} (hl : top <+: l) :
    Confined top h (h'.touch l) where
  outside {m} hm := by
    rcases h'.entryAt?_touch l m with hsame | ⟨p, t, rfl, -, -⟩
    · rw [hsame]
      exact hc.outside hm
    · exact absurd hl hm
  directory he := by
    obtain ⟨t', he'⟩ := hc.directory he
    exact (h'.waysIn_touch l).directory he'
  ways := by
    refine ⟨fun {m p t} he => ?_, fun {m target t} he => ?_⟩
    · rcases h'.entryAt?_touch l m with hsame | ⟨p', t', rfl, he', hnew⟩
      · exact hc.ways.directory (hsame.symm.trans he)
      · obtain ⟨rfl, -⟩ := Entry.directory.inj (Option.some.inj (hnew.symm.trans he))
        exact hc.ways.directory he'
    · rcases h'.entryAt?_touch l m with hsame | ⟨p', t', rfl, -, hnew⟩
      · exact hc.ways.link (hsame.symm.trans he)
      · rw [hnew] at he
        cases he
  cwd := (h'.cwd_touch l).trans hc.cwd
  named {m id} he := by
    rcases h'.entryAt?_touch l m with hsame | ⟨p', t', rfl, -, hnew⟩
    · exact hc.named (hsame.symm.trans he)
    · rw [hnew] at he
      cases he
  longer := by
    rw [files_touch]
    exact hc.longer
  bytes hid hfree := by
    unfold file?
    rw [files_touch]
    exact hc.bytes hid hfree

/-- An entry beneath `top` that is no directory may go, and make room for a new file. -/
theorem change {h'' : Host} (hc : Confined top h h') {l : Location} (hl : top <+: l)
    (hold : ∀ p t, h'.entryAt? l ≠ some (.directory p t))
    (hother : ∀ {m}, m ≠ l → h''.entryAt? m = h'.entryAt? m)
    (hnew : ∀ {e}, h''.entryAt? l = some e → ∃ id, e = .file id ∧ h.files.length ≤ id)
    (hcwd : h''.cwd = h'.cwd) (hlonger : h'.files.length ≤ h''.files.length)
    (hbytes : ∀ {id}, id < h'.files.length → h''.file? id = h'.file? id) :
    Confined top h h'' := by
  have hentry : ∀ {m e}, h''.entryAt? m = some e →
      h'.entryAt? m = some e ∨ ∃ id, e = .file id ∧ h.files.length ≤ id := by
    intro m e he
    by_cases hm : m = l
    · subst hm
      exact .inr (hnew he)
    · rw [hother hm] at he
      exact .inl he
  constructor
  case outside =>
    intro m hm
    have hne : m ≠ l := fun he => hm (he ▸ hl)
    rw [hother hne]
    exact hc.outside hm
  case directory =>
    intro m p t hm
    obtain ⟨t', hm'⟩ := hc.directory hm
    have hne : m ≠ l := by
      rintro rfl
      exact hold p t' hm'
    rw [hother hne]
    exact ⟨t', hm'⟩
  case ways =>
    refine ⟨fun {m p t} hm => ?_, fun {m target t} hm => ?_⟩
    · rcases hentry hm with hm' | ⟨_, hfile, _⟩
      · exact hc.ways.directory hm'
      · cases hfile
    · rcases hentry hm with hm' | ⟨_, hfile, _⟩
      · exact hc.ways.link hm'
      · cases hfile
  case cwd => exact hcwd.trans hc.cwd
  case named =>
    intro m id hm
    rcases hentry hm with hm' | ⟨_, hfile, hlen⟩
    · exact hc.named hm'
    · cases hfile
      exact .inr hlen
  case longer => exact Nat.le_trans hc.longer hlonger
  case bytes =>
    intro id hid hfree
    rw [hbytes (Nat.lt_of_lt_of_le hid hc.longer)]
    exact hc.bytes hid hfree

theorem addFile (hc : Confined top h h') {l : Location} (hl : top <+: l)
    (hvacant : h'.entryAt? l = none) : Confined top h (h'.addFile l).2 := by
  refine hc.change hl ?_ ?_ ?_ rfl ?_ ?_
  · intro p t he
    rw [hvacant] at he
    cases he
  · intro m hm
    rw [entryAt?_addFile, if_neg hm]
  · intro e he
    rw [entryAt?_addFile, if_pos rfl] at he
    exact ⟨h'.files.length, (Option.some.inj he).symm, hc.longer⟩
  · show h'.files.length ≤ (h'.files ++ [_]).length
    rw [List.length_append]
    exact Nat.le_add_right _ _
  · intro id hid
    show (h'.files ++ [_])[id]? = _
    rw [List.getElem?_append_left hid]
    rfl

theorem eraseEntry (hc : Confined top h h') {l : Location} {e : Entry} (hl : top <+: l)
    (he : h'.entryAt? l = some e) (hdir : e.isDir = false) :
    Confined top h (h'.eraseEntry l) := by
  refine hc.change hl ?_ ?_ ?_ rfl (Nat.le_refl _) fun _ => rfl
  · intro p t he'
    obtain rfl := Option.some.inj (he.symm.trans he')
    cases hdir
  · intro m hm
    rw [entryAt?_eraseEntry, if_neg hm]
  · intro e' he'
    rw [entryAt?_eraseEntry, if_pos rfl] at he'
    cases he'

theorem setFile (hc : Confined top h h') {id : FileId} (hopen : Open top h id) (f : File) :
    Confined top h (h'.setFile id f) where
  outside hm := hc.outside hm
  directory he := hc.directory he
  ways := ⟨fun he => hc.ways.directory he, fun he => hc.ways.link he⟩
  cwd := hc.cwd
  named he := hc.named he
  longer := by
    show h.files.length ≤ (h'.files.set id f).length
    rw [List.length_set]
    exact hc.longer
  bytes {q} hq hfree := by
    have hne : id ≠ q := by
      rintro rfl
      rcases hopen with hnew | ⟨l, hl, he⟩
      · exact absurd hq (Nat.not_lt.mpr hnew)
      · exact hfree l hl he
    show (h'.files.set id f)[q]? = _
    rw [List.getElem?_set_ne hne]
    exact hc.bytes hq hfree

end Confined

/-! ## 4. What the service asks of the host -/

section Calls

variable {h : Host} {p : Path}

/-- What an entry is opened as. -/
def OpensAs : Entry → FileObject → Prop
  | .file id, o => o = .file id
  | .device d, o => o = .device d
  | .directory .., _ | .symlink .., _ => False

theorem opensAs_of_openEntry {write : Bool} {e : Entry} {o : FileObject}
    (ho : h.openEntry write e = .ok o) : OpensAs e o := by
  unfold openEntry at ho
  cases e with
  | directory _ _ => cases ho
  | symlink _ _ => cases ho
  | file id =>
    dsimp only at ho
    split at ho
    · cases ho
      exact rfl
    · cases ho
  | device d =>
    dsimp only at ho
    split at ho
    · cases ho
      exact rfl
    · cases ho

theorem openPath_ok {write : Bool} {o : FileObject} (ho : h.openPath write p = .ok o) :
    ∃ l e, h.lookup .follow p = .ok (l, e) ∧ OpensAs e o := by
  unfold openPath at ho
  split at ho
  · next l e hl => exact ⟨l, e, hl, opensAs_of_openEntry ho⟩
  · cases ho

/-- A creation opens what is there, or adds a file where nothing is. -/
theorem createPath_ok {exclusive : Bool} {o : FileObject} {after : Host}
    (hcreate : h.createPath exclusive p = .ok (o, after)) :
    (after = h ∧ ∃ l e, h.lookup .follow p = .ok (l, e) ∧ OpensAs e o) ∨
    (∃ dir n, h.arrive (.create exclusive) p = .ok (.vacant dir n) ∧
      h.entryAt? (dir ++ [n]) = none ∧ o = .file h.files.length ∧
      after = (h.addFile (dir ++ [n])).2.touch dir) := by
  unfold createPath at hcreate
  split at hcreate
  · cases hcreate
  · next l e harrive =>
    cases exclusive with
    | true => cases hcreate
    | false =>
      cases ho : h.openEntry true e with
      | error cause =>
        rw [ho] at hcreate
        cases hcreate
      | ok o' =>
        rw [ho] at hcreate
        cases hcreate
        obtain ⟨hwritable, hw⟩ := arrive_eq_ok_iff.mp harrive
        have hl : h.lookup .follow p = .ok (l, e) :=
          lookup_eq_ok_iff.mpr (arrive_eq_ok_iff.mpr ⟨hwritable, hw.follow_of_create rfl⟩)
        exact .inl ⟨rfl, l, e, hl, opensAs_of_openEntry ho⟩
  · next dir n harrive =>
    split at hcreate
    · cases hcreate
      exact .inr ⟨dir, n, harrive, (arrive_eq_ok_iff.mp harrive).2.vacant_entry rfl, rfl, rfl⟩
    · cases hcreate

theorem directory_of_mayChange {l : Location} (hmay : h.mayChange l = true) :
    ∃ perms t, h.entryAt? l = some (.directory perms t) := by
  unfold mayChange at hmay
  split at hmay
  · next perms t he => exact ⟨perms, t, he⟩
  · cases hmay

/-- A removal takes the entry out that the path names, which is no directory, of the directory that
it is in. -/
theorem removePath_ok {after : Host} (hremove : h.removePath p = .ok after) :
    ∃ l e, h.lookup .entry p = .ok (l, e) ∧ e.isDir = false ∧
      (∃ perms t, h.entryAt? l.dropLast = some (.directory perms t)) ∧
      after = (h.eraseEntry l).touch l.dropLast := by
  unfold removePath at hremove
  split at hremove
  · cases hremove
  · next l e hl =>
    cases hdir : e.isDir with
    | true =>
      rw [hdir] at hremove
      cases hremove
    | false =>
      rw [hdir, if_neg (by decide)] at hremove
      split at hremove
      · next hmay =>
        cases hremove
        exact ⟨l, e, hl, hdir, directory_of_mayChange hmay, rfl⟩
      · cases hremove

/-- What is created is found by the path it was created by. -/
theorem lookup_addFile {exclusive : Bool} {dir : Location} {n : Name}
    (harrive : h.arrive (.create exclusive) p = .ok (.vacant dir n))
    (hvacant : h.entryAt? (dir ++ [n]) = none) :
    ((h.addFile (dir ++ [n])).2.touch dir).lookup .follow p =
      .ok (dir ++ [n], .file h.files.length) := by
  have hadded : (h.addFile (dir ++ [n])).2.entryAt? (dir ++ [n]) = some (.file h.files.length) := by
    rw [entryAt?_addFile, if_pos rfl]
  have hnew : ((h.addFile (dir ++ [n])).2.touch dir).entryAt? (dir ++ [n]) =
      some (.file h.files.length) := by
    rcases (h.addFile (dir ++ [n])).2.entryAt?_touch dir (dir ++ [n]) with hsame | ⟨_, _, hself, _⟩
    · rw [hsame, hadded]
    · exact absurd hself (by simp)
  exact lookup_created ((h.waysIn_addFile _ hvacant).trans (waysIn_touch _ dir))
    (cwd_touch _ dir) harrive hnew

end Calls

namespace Confined

variable {top : Location} {h h' : Host}

/-- **A file added** in a directory beneath `top`. -/
theorem createFile (hc : Confined top h h') {dir : Location} {n : Name} (hdir : top <+: dir)
    (hvacant : h'.entryAt? (dir ++ [n]) = none) :
    Confined top h ((h'.addFile (dir ++ [n])).2.touch dir) :=
  (hc.addFile (hdir.trans (List.prefix_append dir [n])) hvacant).touch hdir

/-- **An entry removed** from a directory beneath `top`. -/
theorem removeEntry (hc : Confined top h h') {dir : Location} {n : Name} {e : Entry}
    (hdir : top <+: dir) (he : h'.entryAt? (dir ++ [n]) = some e) (hfile : e.isDir = false) :
    Confined top h ((h'.eraseEntry (dir ++ [n])).touch dir) :=
  (hc.eraseEntry (hdir.trans (List.prefix_append dir [n])) he hfile).touch hdir

/-- **A write** to a file that is open to changes. -/
theorem writeAt (hc : Confined top h h') {o : FileObject}
    (hopen : ∀ id, o = .file id → Open top h id) (pos : Nat) (b : List UInt8) :
    Confined top h (h'.writeAt o pos b).2.2 := by
  unfold Host.writeAt
  split
  · exact hc
  · cases o with
    | device d => cases d <;> exact hc
    | file id =>
      dsimp only
      split
      · exact hc
      · show Confined top h (h'.overwrite id pos (b.take (h'.room pos b.length)))
        unfold overwrite
        split
        · exact hc
        · exact hc.setFile (hopen id rfl) _

end Confined

end Host

end Telefile

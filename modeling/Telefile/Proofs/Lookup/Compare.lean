import Telefile.Host.Canonical
import Telefile.Proofs.Lookup.Walks
import Telefile.Proofs.Paths

/-!
# Lookups of the same path

One path looked up in different ways, and cut before its last name.

* `Walks.proper` — a way leads to a proper location;
* `Walks.entry_of_follow`, `Walks.follow_of_create` — what one kind of lookup says of another;
* **`Walks.snoc`** — a way through several names is a way through all but the last, with links
  followed, and a step from the directory it leads to (`Splits`);
* **`Walks.agree`** — where a way and a canonical path both exist, they lead to the same place;
* `Walks.along` — through directories that are no links, the way is the location;
* `arrive_eq_ok_iff`, `lookup_eq_ok_iff`, `canonicalize_ok` — paths and ways.
-/

namespace Telefile

/-- The names in an arrival are proper. -/
def Arrival.Proper : Arrival → Prop
  | found l _ => Location.Proper l
  | vacant dir n => Location.Proper (dir ++ [n])

section Taken

variable {last : LastStep} {slash : Bool} {n : Name} {rest : List Name}

/-- A kind of lookup that does not create takes every name that is taken. -/
theorem Taken.change (hn : Taken last slash n rest) {last' : LastStep}
    (hcreates : last'.creates = false) (slash' : Bool) (rest' : List Name) :
    Taken last' slash' n rest' := by
  refine ⟨hn.not_dot, hn.not_dotdot, ?_, hn.short⟩
  rintro ⟨-, -, hc⟩
  rw [hcreates] at hc
  cases hc

/-- With a name behind it, a name is taken by every kind of lookup. -/
theorem Taken.before (hn : Taken last slash n rest) (last' : LastStep) (slash' : Bool)
    {rest' : List Name} (hne : rest' ≠ []) : Taken last' slash' n rest' :=
  ⟨hn.not_dot, hn.not_dotdot, fun hand => hne hand.1, hn.short⟩

end Taken

namespace Host

variable {h : Host} {last : LastStep} {links : Nat} {here : Location} {slash : Bool}
  {names : List Name} {a : Arrival}

theorem isDirectory_of_isDir {e : Entry} (hdir : e.isDir = true) : ∃ p t, e = .directory p t := by
  cases e with
  | directory p t => exact ⟨p, t, rfl⟩
  | _ => cases hdir

theorem isDirectory_of_pass (hpass : h.pass here = .ok ()) :
    ∃ p t, h.entryAt? here = some (.directory p t) := by
  unfold pass at hpass
  split at hpass
  · next p t he => exact ⟨p, t, he⟩
  · cases hpass
  · cases hpass

/-! ## 1. Proper names -/

theorem Walks.proper (hw : h.Walks last links here slash names a) (hhere : here.Proper)
    (hnames : ∀ n ∈ names, n ≠ [] ∧ Path.slash ∉ n) : a.Proper := by
  have hsnoc : ∀ {here : Location} {slash : Bool} {n : Name} {rest : List Name}, here.Proper →
      Taken last slash n rest → (n ≠ [] ∧ Path.slash ∉ n) → Location.Proper (here ++ [n]) :=
    fun hhere hn hwritten =>
      hhere.snoc ⟨hwritten.1, hwritten.2, hn.not_dot, hn.not_dotdot⟩
  induction hw with
  | done _ => exact hhere
  | dot _ _ ih => exact ih hhere fun m hm => hnames m (List.mem_cons_of_mem _ hm)
  | up _ _ ih => exact ih hhere.dropLast fun m hm => hnames m (List.mem_cons_of_mem _ hm)
  | vacant _ hn _ => exact hsnoc hhere hn (hnames _ List.mem_cons_self)
  | stop _ hn _ _ => exact hsnoc hhere hn (hnames _ List.mem_cons_self)
  | reach _ hn _ _ _ => exact hsnoc hhere hn (hnames _ List.mem_cons_self)
  | down _ hn _ _ _ ih =>
    exact ih (hsnoc hhere hn (hnames _ List.mem_cons_self))
      fun m hm => hnames m (List.mem_cons_of_mem _ hm)
  | @link links here slash n rest target t a _ hn _ _ _ ih =>
    refine ih ?_ fun m hm => ?_
    · split
      · exact fun _ hm => absurd hm List.not_mem_nil
      · exact hhere
    · rcases List.mem_append.mp hm with hm | hm
      · exact Path.written_names m hm
      · exact hnames m (List.mem_cons_of_mem _ hm)

/-- A vacant name is not there. -/
theorem Walks.vacant_entry (hw : h.Walks last links here slash names a) {dir : Location} {n : Name}
    (ha : a = .vacant dir n) : h.entryAt? (dir ++ [n]) = none := by
  induction hw with
  | done _ => cases ha
  | dot _ _ ih => exact ih ha
  | up _ _ ih => exact ih ha
  | vacant _ _ he =>
    cases ha
    exact he
  | stop _ _ _ _ => cases ha
  | link _ _ _ _ _ ih => exact ih ha
  | reach _ _ _ _ _ => cases ha
  | down _ _ _ _ _ ih => exact ih ha

/-- The entry that is found is there. -/
theorem Walks.found_entry (hw : h.Walks last links here slash names a) {l : Location} {e : Entry}
    (ha : a = .found l e) : h.entryAt? l = some e := by
  induction hw with
  | done he =>
    cases ha
    exact he
  | dot _ _ ih => exact ih ha
  | up _ _ ih => exact ih ha
  | vacant _ _ _ => cases ha
  | stop _ _ he _ =>
    cases ha
    exact he
  | link _ _ _ _ _ ih => exact ih ha
  | reach _ _ he _ _ =>
    cases ha
    exact he
  | down _ _ _ _ _ ih => exact ih ha

/-! ## 2. Kinds of lookup -/

/-- Where a path leads to an entry, it names one. -/
theorem Walks.entry_of_follow (hw : h.Walks .follow links here slash names a) {l : Location}
    {e : Entry} (ha : a = .found l e) :
    ∃ m e', h.Walks .entry links here slash names (.found m e') := by
  induction hw with
  | done he => exact ⟨_, _, .done he⟩
  | dot hpass _ ih =>
    obtain ⟨m, e', hm⟩ := ih ha
    exact ⟨m, e', .dot hpass hm⟩
  | up hpass _ ih =>
    obtain ⟨m, e', hm⟩ := ih ha
    exact ⟨m, e', .up hpass hm⟩
  | vacant _ _ _ => cases ha
  | stop _ _ _ hlast => cases hlast
  | @link links here slash n rest target t a hpass hn he _ _ ih =>
    by_cases hend : rest = [] ∧ slash = false
    · obtain ⟨rfl, rfl⟩ := hend
      exact ⟨_, _, .stop hpass (hn.change rfl _ _) he rfl⟩
    · obtain ⟨m, e', hm⟩ := ih ha
      exact ⟨m, e', .link hpass (hn.change rfl _ _) he (fun hand => hend ⟨hand.1, hand.2.1⟩) hm⟩
  | reach hpass hn he hlink hdir => exact ⟨_, _, .reach hpass (hn.change rfl _ _) he hlink hdir⟩
  | down hpass hn he hne _ ih =>
    obtain ⟨m, e', hm⟩ := ih ha
    exact ⟨m, e', .down hpass (hn.change rfl _ _) he hne hm⟩

/-- What is opened where it might have been created is what the path leads to. -/
theorem Walks.follow_of_create (hw : h.Walks (.create false) links here slash names a)
    {l : Location} {e : Entry} (ha : a = .found l e) : h.Walks .follow links here slash names a := by
  induction hw with
  | done he => exact .done he
  | dot hpass _ ih => exact .dot hpass (ih ha)
  | up hpass _ ih => exact .up hpass (ih ha)
  | vacant _ _ _ => cases ha
  | stop _ _ _ hlast => cases hlast
  | link hpass hn he _ _ ih =>
    exact .link hpass (hn.change rfl _ _) he (fun hand => by cases hand.2.2) (ih ha)
  | reach hpass hn he hlink hdir => exact .reach hpass (hn.change rfl _ _) he hlink hdir
  | down hpass hn he hne _ ih => exact .down hpass (hn.change rfl _ _) he hne (ih ha)

/-! ## 3. All names but the last -/

/-- The way through `ns` and then `n` to `a` has a last step: it starts in a directory that `ns`
leads to, and any kind of lookup may be taken there. -/
def Splits (h : Host) (last : LastStep) (links : Nat) (here : Location) (slash : Bool)
    (ns : List Name) (n : Name) (a : Arrival) : Prop :=
  ∃ d left p t, (∀ sl, h.Walks .follow links here sl ns (.found d (.directory p t))) ∧
    h.Walks last left d slash [n] a ∧
    ∀ last' b, h.Walks last' left d slash [n] b → h.Walks last' links here slash (ns ++ [n]) b

namespace Splits

variable {ns : List Name} {n m : Name}

theorem single (hpass : h.pass here = .ok ()) (hw : h.Walks last links here slash [n] a) :
    h.Splits last links here slash [] n a := by
  obtain ⟨p, t, he⟩ := isDirectory_of_pass hpass
  exact ⟨here, links, p, t, fun _ => .done he, hw, fun _ _ hb => hb⟩

theorem dot (hs : h.Splits last links here slash ns n a) (hpass : h.pass here = .ok ()) :
    h.Splits last links here slash (Path.dot :: ns) n a := by
  obtain ⟨d, left, p, t, hdir, hlast, hback⟩ := hs
  refine ⟨d, left, p, t, fun sl => ?_, hlast, fun last' b hb => ?_⟩
  · exact .dot hpass (hdir sl)
  · exact .dot hpass (hback last' b hb)

theorem up (hs : h.Splits last links here.dropLast slash ns n a) (hpass : h.pass here = .ok ()) :
    h.Splits last links here slash (Path.dotdot :: ns) n a := by
  obtain ⟨d, left, p, t, hdir, hlast, hback⟩ := hs
  refine ⟨d, left, p, t, fun sl => ?_, hlast, fun last' b hb => ?_⟩
  · exact .up hpass (hdir sl)
  · exact .up hpass (hback last' b hb)

/-- With a name behind it, a link is followed by every kind of lookup. -/
theorem link {target : Path} {t : Timestamp}
    (hs : h.Splits last links (if target.isAbsolute then [] else here)
      (slash || (decide (ns ++ [n] = []) && target.endsInSlash)) (target.names ++ ns) n a)
    (hpass : h.pass here = .ok ()) (hm : Taken last slash m (ns ++ [n]))
    (he : h.entryAt? (here ++ [m]) = some (.symlink target t)) :
    h.Splits last (links + 1) here slash (m :: ns) n a := by
  have hne : ns ++ [n] ≠ [] := by simp
  have hslash : (slash || (decide (ns ++ [n] = []) && target.endsInSlash)) = slash := by simp
  obtain ⟨d, left, p, t', hdir, hlast, hback⟩ := hs
  rw [hslash] at hlast hback
  refine ⟨d, left, p, t', fun sl => ?_, hlast, fun last' b hb => ?_⟩
  · exact .link hpass (hm.change rfl sl ns) he (fun hand => by cases hand.2.2) (hdir _)
  · have hgoes := hback last' b hb
    rw [← hslash, List.append_assoc] at hgoes
    exact .link hpass (hm.before last' slash hne) he (fun hand => hne hand.1) hgoes

theorem down {p : Perms} {t : Timestamp} (hs : h.Splits last links (here ++ [m]) slash ns n a)
    (hpass : h.pass here = .ok ()) (hm : Taken last slash m (ns ++ [n]))
    (he : h.entryAt? (here ++ [m]) = some (.directory p t)) :
    h.Splits last links here slash (m :: ns) n a := by
  have hne : ns ++ [n] ≠ [] := by simp
  obtain ⟨d, left, p', t', hdir, hlast, hback⟩ := hs
  refine ⟨d, left, p', t', fun sl => ?_, hlast, fun last' b hb => ?_⟩
  · have htaken : Taken .follow sl m ns := hm.change rfl sl ns
    by_cases hns : ns = []
    · subst hns
      cases hdir sl with
      | done he' => exact .reach hpass htaken he' rfl (.inl rfl)
    · exact .down hpass htaken he hns (hdir sl)
  · exact .down hpass (hm.before last' slash hne) he hne (hback last' b hb)

end Splits

/-- **Every way has a last step**, unless the last name is a dot or two. -/
theorem Walks.snoc (hw : h.Walks last links here slash names a) :
    ∀ {ns : List Name} {n : Name}, names = ns ++ [n] → n ≠ Path.dot → n ≠ Path.dotdot →
      h.Splits last links here slash ns n a := by
  -- where one name is left, the way is its own last step
  have hend : ∀ {links : Nat} {here : Location} {slash : Bool} {m n : Name} {ns : List Name}
      {a : Arrival}, h.pass here = .ok () → h.Walks last links here slash [m] a →
      [m] = ns ++ [n] → h.Splits last links here slash ns n a := by
    intro links here slash m n ns a hpass hwhole hm
    rcases List.cons_eq_append_iff.mp hm with ⟨rfl, hn⟩ | ⟨ns', rfl, htail⟩
    · obtain ⟨rfl, -⟩ := List.cons.inj hn
      exact .single hpass hwhole
    · exact absurd htail (by simp)
  induction hw with
  | done _ => exact fun hm => absurd hm (by simp)
  | dot hpass _ ih =>
    intro ns n hm hdot hdotdot
    rcases List.cons_eq_append_iff.mp hm with ⟨-, hn⟩ | ⟨ns', rfl, htail⟩
    · exact absurd (List.cons.inj hn).1 hdot
    · exact (ih htail hdot hdotdot).dot hpass
  | up hpass _ ih =>
    intro ns n hm hdot hdotdot
    rcases List.cons_eq_append_iff.mp hm with ⟨-, hn⟩ | ⟨ns', rfl, htail⟩
    · exact absurd (List.cons.inj hn).1 hdotdot
    · exact (ih htail hdot hdotdot).up hpass
  | vacant hpass hn he => exact fun hm _ _ => hend hpass (.vacant hpass hn he) hm
  | stop hpass hn he hlast => exact fun hm _ _ => hend hpass (.stop hpass hn he hlast) hm
  | reach hpass hn he hlink hdir => exact fun hm _ _ => hend hpass (.reach hpass hn he hlink hdir) hm
  | @link links here slash m rest target t a hpass hm he hgo hrest ih =>
    intro ns n hnames hdot hdotdot
    rcases List.cons_eq_append_iff.mp hnames with ⟨rfl, hn⟩ | ⟨ns', rfl, htail⟩
    · obtain ⟨rfl, rfl⟩ := List.cons.inj hn
      exact .single hpass (.link hpass hm he hgo hrest)
    · subst htail
      have hs := ih (List.append_assoc target.names ns' [n]).symm hdot hdotdot
      exact hs.link hpass hm he
  | @down links here slash m rest p t a hpass hm he hne hrest ih =>
    intro ns n hnames hdot hdotdot
    rcases List.cons_eq_append_iff.mp hnames with ⟨rfl, hn⟩ | ⟨ns', rfl, htail⟩
    · exact absurd (List.cons.inj hn).2.symm hne
    · subst htail
      exact (ih rfl hdot hdotdot).down hpass hm he

/-! ## 4. Canonical paths -/

section Trace

variable {n : Name} {rest : List Name} {l : Location}

theorem trace_nil : h.trace links here slash [] = .ok here := by
  rw [trace.eq_def]

theorem trace_dot : h.trace links here slash (Path.dot :: rest) =
    h.trace links here slash rest := by
  rw [trace.eq_def]
  simp only [if_true]

theorem trace_dotdot : h.trace links here slash (Path.dotdot :: rest) =
    h.trace links here.dropLast slash rest := by
  have hne : Path.dotdot ≠ Path.dot := by decide
  rw [trace.eq_def]
  simp only [if_neg hne, if_true]

theorem entryAt?_of_glance {e : Entry} (hg : h.glance here n = .ok e) :
    h.entryAt? (here ++ [n]) = some e := by
  unfold glance at hg
  split at hg
  · cases hg
  · split at hg
    · cases hg
    · split at hg
      · cases hg
      · split at hg
        · next he =>
          cases hg
          exact he
        · cases hg

variable (hdot : n ≠ Path.dot) (hdotdot : n ≠ Path.dotdot)

include hdot hdotdot

/-- A canonical path is found only through entries that are there. -/
theorem glance_of_trace (ht : h.trace links here slash (n :: rest) = .ok l) :
    ∃ e, h.entryAt? (here ++ [n]) = some e ∧ h.glance here n = .ok e := by
  rw [trace.eq_def] at ht
  simp only [if_neg hdot, if_neg hdotdot] at ht
  cases hg : h.glance here n with
  | error e =>
    rw [hg] at ht
    cases ht
  | ok e => exact ⟨e, entryAt?_of_glance hg, rfl⟩

theorem trace_of_link {target : Path} {t : Timestamp}
    (he : h.entryAt? (here ++ [n]) = some (.symlink target t))
    (ht : h.trace (links + 1) here slash (n :: rest) = .ok l) :
    h.trace links (if target.isAbsolute then [] else here)
      (slash || (decide (rest = []) && target.endsInSlash)) (target.names ++ rest) = .ok l := by
  obtain ⟨e, he', hg⟩ := glance_of_trace hdot hdotdot ht
  obtain rfl := Option.some.inj (he.symm.trans he')
  rw [trace.eq_def] at ht
  simp only [if_neg hdot, if_neg hdotdot, hg] at ht
  exact ht

theorem trace_of_entry {e : Entry} (he : h.entryAt? (here ++ [n]) = some e)
    (hlink : e.isLink = false) (ht : h.trace links here slash (n :: rest) = .ok l) :
    h.trace links (here ++ [n]) slash rest = .ok l := by
  obtain ⟨e', he', hg⟩ := glance_of_trace hdot hdotdot ht
  obtain rfl := Option.some.inj (he.symm.trans he')
  rw [trace.eq_def] at ht
  simp only [if_neg hdot, if_neg hdotdot, hg] at ht
  cases e with
  | symlink target t => cases hlink
  | _ =>
    dsimp only at ht
    split at ht
    · cases ht
    · exact ht

end Trace

/-- **A way and a canonical path lead to the same place**, unless the way ends at a link that the
canonical path follows. -/
theorem Walks.agree (hw : h.Walks last links here slash names a) :
    ∀ {l : Location}, h.trace links here slash names = .ok l →
      (∃ e, a = .found l e) ∨
        (last.follows = false ∧ ∃ m target t, a = .found m (.symlink target t)) := by
  induction hw with
  | @done links here slash e _ =>
    intro l ht
    rw [trace_nil] at ht
    cases ht
    exact .inl ⟨e, rfl⟩
  | dot _ _ ih =>
    intro l ht
    rw [trace_dot] at ht
    exact ih ht
  | up _ _ ih =>
    intro l ht
    rw [trace_dotdot] at ht
    exact ih ht
  | vacant _ hn he =>
    intro l ht
    obtain ⟨e, he', -⟩ := glance_of_trace hn.not_dot hn.not_dotdot ht
    rw [he] at he'
    cases he'
  | @stop links here n target t _ _ _ hlast =>
    exact fun _ => .inr ⟨hlast, _, target, t, rfl⟩
  | link _ hn he _ _ ih =>
    intro l ht
    exact ih (trace_of_link hn.not_dot hn.not_dotdot he ht)
  | @reach links here slash n e _ hn he hlink _ =>
    intro l ht
    have hhere := trace_of_entry hn.not_dot hn.not_dotdot he hlink ht
    rw [trace_nil] at hhere
    cases hhere
    exact .inl ⟨e, rfl⟩
  | down _ hn he _ _ ih =>
    intro l ht
    exact ih (trace_of_entry hn.not_dot hn.not_dotdot he rfl ht)

/-! ## 5. Through directories -/

/-- Where all names are proper and stand for directories one in another, the way to the last of
them is the location itself. -/
theorem Walks.along (hw : h.Walks last links here slash names a) (hproper : Location.Proper names)
    (hdirs : ∀ m, m <+: names → ∃ p t, h.entryAt? (here ++ m) = some (.directory p t)) :
    ∃ p t, a = .found (here ++ names) (.directory p t) := by
  induction hw with
  | @done links here slash e he =>
    obtain ⟨p, t, he'⟩ := hdirs [] List.prefix_rfl
    rw [List.append_nil] at he' ⊢
    obtain rfl := Option.some.inj (he.symm.trans he')
    exact ⟨p, t, rfl⟩
  | dot _ _ _ => exact absurd rfl (hproper _ List.mem_cons_self).not_dot
  | up _ _ _ => exact absurd rfl (hproper _ List.mem_cons_self).not_dotdot
  | @vacant links here slash n _ _ he =>
    obtain ⟨p, t, he'⟩ := hdirs [n] List.prefix_rfl
    rw [he] at he'
    cases he'
  | @stop links here n _ _ _ _ he _ =>
    obtain ⟨p, t, he'⟩ := hdirs [n] List.prefix_rfl
    rw [he] at he'
    cases he'
  | @link links here slash n rest _ _ _ _ _ he _ _ _ =>
    obtain ⟨p, t, he'⟩ := hdirs [n] (List.prefix_append [n] rest)
    rw [he] at he'
    cases he'
  | @reach links here slash n e _ _ he _ _ =>
    obtain ⟨p, t, he'⟩ := hdirs [n] List.prefix_rfl
    obtain rfl := Option.some.inj (he.symm.trans he')
    exact ⟨p, t, rfl⟩
  | @down links here slash n rest _ _ a _ _ _ _ _ ih =>
    have hrest : ∀ m, m <+: rest →
        ∃ p t, h.entryAt? (here ++ [n] ++ m) = some (.directory p t) := by
      intro m hm
      rw [List.append_assoc]
      exact hdirs (n :: m) (List.prefix_cons_inj n |>.mpr hm)
    obtain ⟨p, t, ha⟩ := ih (fun m hm => hproper m (List.mem_cons_of_mem n hm)) hrest
    rw [List.append_assoc] at ha
    exact ⟨p, t, ha⟩

/-! ## 6. Paths -/

section Paths

variable {p : Path}

/-- What a path leads to is what its names lead to; a path that cannot be written leads nowhere. -/
theorem arrive_eq_ok_iff : h.arrive last p = .ok a ↔
    (0 ∉ p.text ∧ p.text ≠ [] ∧ p.text.length ≤ maxPath) ∧
      h.Walks last maxLinks (if p.isAbsolute then [] else h.cwd) p.endsInSlash p.names a := by
  unfold arrive
  by_cases hnul : 0 ∈ p.text
  · rw [if_pos hnul]
    exact ⟨fun hw => (by cases hw), fun hand => absurd hnul hand.1.1⟩
  · rw [if_neg hnul]
    by_cases hempty : p.text = []
    · rw [if_pos hempty]
      exact ⟨fun hw => (by cases hw), fun hand => absurd hempty hand.1.2.1⟩
    · rw [if_neg hempty]
      by_cases hlong : maxPath < p.text.length
      · rw [if_pos hlong]
        exact ⟨fun hw => (by cases hw), fun hand => absurd hand.1.2.2 (Nat.not_le.mpr hlong)⟩
      · rw [if_neg hlong, walk_eq_ok_iff]
        exact ⟨fun hw => ⟨⟨hnul, hempty, Nat.le_of_not_lt hlong⟩, hw⟩, And.right⟩

theorem lookup_eq_ok_iff {l : Location} {e : Entry} :
    h.lookup last p = .ok (l, e) ↔ h.arrive last p = .ok (.found l e) := by
  unfold lookup
  rcases h.arrive last p with cause | ⟨m, e'⟩ | ⟨dir, n⟩
  · exact ⟨fun hl => (by cases hl), fun ha => (by cases ha)⟩
  · simp
  · exact ⟨fun hl => (by cases hl), fun ha => (by cases ha)⟩

/-- A canonical path is that of the location that the names of the path lead to. -/
theorem canonicalize_ok {real : Path} (hreal : h.canonicalize p = .ok real) :
    0 ∉ p.text ∧ ∃ l, real = .ofLocation l ∧
      h.trace maxLinks (if p.isAbsolute then [] else h.cwd) p.endsInSlash p.names = .ok l := by
  unfold canonicalize at hreal
  split at hreal
  · cases hreal
  · next hnul =>
    refine ⟨hnul, ?_⟩
    split at hreal
    · cases hreal
    · cases ht : h.trace maxLinks (if p.isAbsolute then [] else h.cwd) p.endsInSlash p.names with
      | error cause =>
        rw [ht] at hreal
        cases hreal
      | ok l =>
        rw [ht] at hreal
        cases hreal
        exact ⟨l, rfl, rfl⟩

theorem entryAt?_of_lookup {l : Location} {e : Entry} (hl : h.lookup last p = .ok (l, e)) :
    h.entryAt? l = some e :=
  (arrive_eq_ok_iff.mp (lookup_eq_ok_iff.mp hl)).2.found_entry rfl

end Paths

end Host

end Telefile

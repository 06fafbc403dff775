import Telefile.Proofs.Confinement.Verdicts

/-!
# A root as it is written

A root that had no canonical path is kept as it was written. The check accepts a path only if a
canonical path begins with the components of the root. So the root must then be absolute, without
links and without `..` in what is there; and if a path goes on from it and leads somewhere, it is a
directory. Such a root has a canonical path, in every host that has the same directories.

* `Path.exists_component`, `Path.isAbsolute_parent?`, **`Path.names_of_components`** — absolute paths;
* `Host.Walks.dotted`, `Host.Walks.directory_before`, **`Host.canonicalize_root`** — lookups through a
  root;
* **`Scope.root_of_staysWithin`** — what the check needs of a root;
* **`Scope.not_arrive_of_unusable`** — under a root that was unusable, nothing is reached.
-/

namespace Telefile

namespace Path

/-! ## 1. Absolute paths -/

theorem glue_split (t : List UInt8) : glue (split t) = t := by
  induction t with
  | nil => rfl
  | cons b rest ih =>
    unfold split
    split
    · next hb => rw [glue_cons (split_ne_nil rest), ih, hb, List.nil_append]
    · cases hs : split rest with
      | nil => exact absurd hs (split_ne_nil rest)
      | cons part parts =>
        rw [hs] at ih
        rw [← ih]
        cases parts with
        | nil => rw [glue_singleton, glue_singleton]
        | cons more parts =>
          rw [glue_cons (List.cons_ne_nil more parts), glue_cons (List.cons_ne_nil more parts),
            List.cons_append]

/-- Fewer parts take less room. -/
theorem length_glue_le {parts more : List Name} (h : parts.Sublist more) :
    (glue parts).length ≤ (glue more).length := by
  induction h with
  | slnil => exact Nat.le_refl _
  | @cons parts more n h ih =>
    cases more with
    | nil =>
      rw [List.sublist_nil.mp h]
      exact Nat.zero_le _
    | cons m more =>
      rw [glue_cons (List.cons_ne_nil m more), List.length_append, List.length_cons]
      omega
  | @cons_cons parts more n h ih =>
    cases more with
    | nil =>
      obtain rfl := List.sublist_nil.mp h
      exact Nat.le_refl _
    | cons m more =>
      rw [glue_cons (List.cons_ne_nil m more), List.length_append, List.length_cons]
      cases parts with
      | nil =>
        rw [glue_singleton]
        exact Nat.le_add_right _ _
      | cons k parts =>
        rw [glue_cons (List.cons_ne_nil k parts), List.length_append, List.length_cons]
        omega

section Absolute

variable {p : Path}

/-- Before the first slash of an absolute path stands nothing. -/
theorem split_of_isAbsolute (h : p.isAbsolute = true) :
    ∃ rest, rest ≠ [] ∧ split p.text = [] :: rest := by
  unfold isAbsolute at h
  cases ht : p.text with
  | nil =>
    rw [ht] at h
    cases h
  | cons b text =>
    rw [ht] at h
    obtain rfl : b = slash := by simpa using h
    rw [split, if_pos rfl]
    exact ⟨_, split_ne_nil text, rfl⟩

theorem isAbsolute_of_split {rest : List Name} (hne : rest ≠ [])
    (h : split p.text = [] :: rest) : p.isAbsolute = true := by
  have htext := glue_split p.text
  rw [h, glue_cons hne, List.nil_append] at htext
  unfold isAbsolute
  rw [← htext]
  rfl

theorem components_of_isAbsolute (h : p.isAbsolute = true) :
    ∃ rest, rest ≠ [] ∧ split p.text = [] :: rest ∧
      p.components = .root :: rest.filterMap component? := by
  obtain ⟨rest, hne, hs⟩ := split_of_isAbsolute h
  refine ⟨rest, hne, hs, ?_⟩
  unfold components
  rw [hs]
  dsimp only
  rw [if_pos rfl, if_neg hne]
  rfl

/-- A path that is not empty starts with a component, which is a slash only if it is absolute. -/
theorem exists_component (h : p.text ≠ []) :
    ∃ c cs, p.components = c :: cs ∧ (c = .root → p.isAbsolute = true) := by
  by_cases habsolute : p.isAbsolute = true
  · obtain ⟨rest, -, -, hc⟩ := components_of_isAbsolute habsolute
    exact ⟨_, _, hc, fun _ => habsolute⟩
  have htext := glue_split p.text
  unfold components
  cases hs : split p.text with
  | nil => exact absurd hs (split_ne_nil p.text)
  | cons first rest =>
    dsimp only
    by_cases hnil : first = []
    · subst hnil
      by_cases hrest : rest = []
      · subst hrest
        rw [hs] at htext
        exact absurd htext.symm h
      · exact absurd (isAbsolute_of_split hrest hs) habsolute
    rw [if_neg hnil]
    by_cases hdot : first = dot
    · rw [if_pos hdot]
      exact ⟨.here, _, rfl, fun hroot => by cases hroot⟩
    rw [if_neg hdot]
    unfold component?
    rw [if_neg (not_or.mpr ⟨hnil, hdot⟩)]
    by_cases hdotdot : first = dotdot
    · rw [if_pos hdotdot]
      exact ⟨.parent, _, rfl, fun hroot => by cases hroot⟩
    · rw [if_neg hdotdot]
      exact ⟨.name first, _, rfl, fun hroot => by cases hroot⟩

theorem isAbsolute_of_components {cs : List Component} (h : p.components = .root :: cs) :
    p.isAbsolute = true := by
  have hne : p.text ≠ [] := by
    intro hnil
    unfold components at h
    rw [hnil] at h
    cases h
  obtain ⟨c, cs', hc, habsolute⟩ := exists_component hne
  rw [h] at hc
  exact habsolute (List.cons.inj hc).1.symm

/-- Above an absolute path, paths are absolute. -/
theorem isAbsolute_parent? {q : Path} (h : p.isAbsolute = true) (hq : p.parent? = some q) :
    q.isAbsolute = true := by
  obtain ⟨rest, hne, hsplit⟩ := split_of_isAbsolute h
  unfold parent? at hq
  rw [hsplit] at hq
  dsimp only at hq
  split at hq
  · cases hq
  · split at hq
    · cases hq
      rfl
    · next habove =>
      cases hq
      have hne' : trimEnd (trimEnd rest).dropLast ≠ [] := fun hnil => habove ⟨rfl, hnil⟩
      show (⟨glue ([] :: _)⟩ : Path).isAbsolute = true
      rw [glue_cons hne']
      rfl

theorem isAbsolute_of_mem_upwards (k : Nat) : ∀ {p q : Path}, p.isAbsolute = true →
    q ∈ upwards k p → q.isAbsolute = true := by
  induction k with
  | zero => exact fun _ hq => absurd hq List.not_mem_nil
  | succ k ih =>
    intro p q hp hq
    unfold upwards at hq
    rcases List.mem_cons.mp hq with rfl | habove
    · exact hp
    · cases hparent : p.parent? with
      | none =>
        rw [hparent] at habove
        cases habove
      | some r =>
        rw [hparent] at habove
        exact ih (isAbsolute_parent? hp hparent) habove

theorem filter_of_filterMap {parts : List Name} :
    ∀ {l : List Name}, parts.filterMap component? = l.map .name →
      (parts.filter fun n => !n.isEmpty).filter (fun n => n != dot) = l := by
  induction parts with
  | nil =>
    intro l h
    cases l with
    | nil => rfl
    | cons n l => cases h
  | cons part parts ih =>
    intro l h
    rw [List.filterMap_cons] at h
    by_cases hnil : part = []
    · subst hnil
      exact ih h
    rw [List.filter_cons_of_pos (by simpa using hnil)]
    by_cases hdot : part = dot
    · subst hdot
      exact ih h
    rw [List.filter_cons_of_pos (by simpa using hdot)]
    unfold component? at h
    rw [if_neg (not_or.mpr ⟨hnil, hdot⟩)] at h
    by_cases hdotdot : part = dotdot
    · rw [if_pos hdotdot] at h
      cases l with
      | nil => cases h
      | cons n l => cases (List.cons.inj h).1
    · rw [if_neg hdotdot] at h
      cases l with
      | nil => cases h
      | cons n l =>
        obtain ⟨hn, hrest⟩ := List.cons.inj h
        cases hn
        exact congrArg _ (ih hrest)

/-- **The names of an absolute path without `..`**, but for those that lead nowhere. -/
theorem names_of_components {l : Location} (h : p.components = .root :: l.map .name) :
    p.names.filter (fun n => n != dot) = l ∧ (ofLocation l).text.length ≤ p.text.length := by
  obtain ⟨rest, hne, hs, hc⟩ := components_of_isAbsolute (isAbsolute_of_components h)
  have hnames : p.names = rest.filter fun n => !n.isEmpty := by
    unfold names
    rw [hs]
    rfl
  have hfilter : p.names.filter (fun n => n != dot) = l := by
    rw [hc] at h
    rw [hnames]
    exact filter_of_filterMap (List.cons.inj h).2
  refine ⟨hfilter, ?_⟩
  have hsub : l.Sublist rest := by
    rw [← hfilter, hnames]
    exact List.filter_sublist.trans List.filter_sublist
  have htext : p.text = slash :: glue rest := by
    rw [← glue_split p.text, hs, glue_cons hne, List.nil_append]
  rw [htext]
  exact Nat.succ_le_succ (length_glue_le hsub)

end Absolute

end Path

namespace Host

section Roots

variable {h host : Host} {links : Nat} {here l : Location} {slash : Bool} {names : List Name}

/-! ## 2. Lookups through a root -/

/-- A way through names and more, to a directory, passes a directory at the end of the first. -/
theorem Walks.front {more : List Name} (hmore : Location.Proper more) :
    ∀ {d : Location} {p : Perms} {t : Timestamp},
      (∀ sl, h.Walks .follow links here sl (names ++ more) (.found d (.directory p t))) →
        ∃ d p t, ∀ sl, h.Walks .follow links here sl names (.found d (.directory p t)) := by
  induction more using List.reverseRecOn with
  | nil =>
    intro d p t hw
    rw [List.append_nil] at hw
    exact ⟨d, p, t, hw⟩
  | append_singleton more n ih =>
    intro d p t hw
    have hn : n.Proper := hmore n (by simp)
    obtain ⟨d', left, p', t', hdir, -, -⟩ :=
      (hw false).snoc (List.append_assoc ..).symm hn.not_dot hn.not_dotdot
    exact ih hmore.left hdir

/-- Where no link is on the way, a way through names and dots leads to the names. -/
theorem Walks.dotted {a : Arrival} (hw : h.Walks .follow links here slash names a)
    {d : Location} {e : Entry} (ha : a = .found d e) :
    ∀ {l : Location}, names.filter (fun n => n != Path.dot) = l → Location.Proper l →
      (∀ m n e, m ++ [n] <+: l → h.entryAt? (here ++ (m ++ [n])) = some e → e.isLink = false) →
        d = here ++ l := by
  induction hw with
  | done _ =>
    rintro l rfl _ _
    cases ha
    exact (List.append_nil _).symm
  | dot _ _ ih => exact fun hl hproper hlinks => ih ha hl hproper hlinks
  | up _ _ _ =>
    rintro l rfl hproper _
    exact absurd rfl (hproper _ (List.mem_filter.mpr ⟨List.mem_cons_self, by decide⟩)).not_dotdot
  | vacant _ _ _ => cases ha
  | stop _ _ _ hlast => cases hlast
  | @link links here slash n rest target t a _ hn he _ _ _ =>
    rintro l rfl _ hlinks
    rw [List.filter_cons_of_pos (by simpa using hn.not_dot)] at hlinks
    cases hlinks [] n _ (List.prefix_append [n] _) he
  | @reach links here slash n e _ hn _ _ _ =>
    rintro l rfl _ _
    cases ha
    rw [List.filter_cons_of_pos (by simpa using hn.not_dot), List.filter_nil]
  | @down links here slash n rest p t a _ hn _ _ _ ih =>
    rintro l rfl hproper hlinks
    rw [List.filter_cons_of_pos (by simpa using hn.not_dot)] at hproper hlinks ⊢
    rw [ih ha rfl (fun m hm => hproper m (List.mem_cons_of_mem n hm)) ?_, List.append_assoc,
      List.singleton_append]
    intro m k e hup he
    rw [List.append_assoc] at he
    exact hlinks (n :: m) k e (List.cons_prefix_cons.mpr ⟨rfl, hup⟩) he

/-- A way that goes on from a firm location, written with dots, passes the directory there. -/
theorem Walks.directory_before {last : LastStep} {more : List Name} {a : Arrival}
    (hw : h.Walks last links [] slash (names ++ more) a) (hmore : Location.Proper more)
    (hne : more ≠ []) (hnames : names.filter (fun n => n != Path.dot) = l) (hl : Location.Proper l)
    (hfirm : h.Firm l) : ∃ p t, h.entryAt? l = some (.directory p t) := by
  rcases List.eq_nil_or_concat more with hnil | ⟨ms, n, rfl⟩
  · exact absurd hnil hne
  rw [List.concat_eq_append] at hw hmore
  have hn : n.Proper := hmore n (by simp)
  obtain ⟨d, left, p, t, hd, -, -⟩ := hw.snoc (List.append_assoc ..).symm hn.not_dot hn.not_dotdot
  obtain ⟨d', p', t', hd'⟩ := Walks.front hmore.left hd
  have hend : d' = [] ++ l := by
    refine (hd' false).dotted rfl hnames hl fun m n e hup he => ?_
    obtain ⟨e', he', hlink⟩ := hfirm.entry hup
    obtain rfl := Option.some.inj (he.symm.trans he')
    exact hlink
  subst hend
  exact ⟨p', t', (hd' false).found_entry rfl⟩

/-- A canonical path through directories, dots between them. -/
theorem trace_of_directories (names : List Name) :
    ∀ {l here : Location}, names.filter (fun n => n != Path.dot) = l → Location.Proper l →
      (∀ m n, m ++ [n] <+: l → ∃ p t, h.glance (here ++ m) n = .ok (.directory p t)) →
      (∀ m, m <+: l → (Path.ofLocation (here ++ m)).text.length < maxPath) →
        h.trace links here slash names = .ok (here ++ l) := by
  induction names with
  | nil =>
    rintro l here rfl _ _ _
    rw [trace_nil, List.filter_nil, List.append_nil]
  | cons n rest ih =>
    intro l here hl hproper hdirs hlen
    by_cases hdot : n = Path.dot
    · subst hdot
      rw [trace_dot]
      exact ih hl hproper hdirs hlen
    · rw [List.filter_cons_of_pos (by simpa using hdot)] at hl
      subst hl
      have hn := hproper n List.mem_cons_self
      obtain ⟨p, t, hg⟩ := hdirs [] n (List.prefix_append [n] _)
      rw [List.append_nil] at hg
      have hmay : mayPrecede (here ++ [n]) (.directory p t) rest slash = .ok () := by
        have hshort := hlen [n] (List.prefix_append [n] _)
        unfold mayPrecede
        split
        · rfl
        · rw [if_neg (fun hdir => by cases hdir), if_neg (by omega)]
      rw [trace.eq_def]
      simp only [if_neg hdot, if_neg hn.not_dotdot, hg, hmay]
      rw [ih rfl (fun m hm => hproper m (List.mem_cons_of_mem n hm)) ?_ ?_, List.append_assoc,
        List.singleton_append]
      · intro m k hup
        rw [List.append_assoc]
        exact hdirs (n :: m) k (List.cons_prefix_cons.mpr ⟨rfl, hup⟩)
      · intro m hup
        rw [List.append_assoc]
        exact hlen (n :: m) (List.cons_prefix_cons.mpr ⟨rfl, hup⟩)

/-- **A directory that an absolute root names** without links is canonical, in every host that has the
same directories. -/
theorem canonicalize_root (hways : h.WaysIn host) {root : Path} {l : Location}
    (hroot : root.components = .root :: l.map .name) (hl : Location.Proper l) (hfirm : h.Firm l)
    (hdir : ∃ p t, h.entryAt? l = some (.directory p t)) (hnul : 0 ∉ root.text)
    (hlen : root.text.length < maxPath) : host.canonicalize root = .ok (.ofLocation l) := by
  obtain ⟨hnames, hshort⟩ := Path.names_of_components hroot
  have habsolute := Path.isAbsolute_of_components hroot
  have hne : root.text ≠ [] := by
    intro hnil
    unfold Path.isAbsolute at habsolute
    rw [hnil] at habsolute
    cases habsolute
  -- what is gone through on the way is a directory, and so is what the way ends at
  have hdirs : ∀ m, m <+: l → ∃ p t, h.entryAt? m = some (.directory p t) := by
    rintro m ⟨more, rfl⟩
    cases more with
    | nil =>
      rw [List.append_nil] at hdir
      exact hdir
    | cons n more =>
      obtain ⟨e, hg, -⟩ := hfirm m n ⟨more, by simp⟩
      exact isDirectory_of_pass (glance_eq_ok_iff.mp hg).2.1
  have htrace : host.trace maxLinks [] root.endsInSlash root.names = .ok ([] ++ l) := by
    refine trace_of_directories root.names hnames hl ?_ ?_
    · intro m n hup
      obtain ⟨e, hg, -⟩ := hfirm m n hup
      obtain ⟨hlong, hpass, hname, -⟩ := glance_eq_ok_iff.mp hg
      obtain ⟨p, t, he⟩ := hdirs _ hup
      obtain ⟨t', he'⟩ := hways.directory he
      exact ⟨p, t', glance_eq_ok_iff.mpr ⟨hlong, hways.pass hpass, hname, he'⟩⟩
    · intro m hup
      have hle := Nat.succ_le_succ (Path.length_glue_le hup.sublist)
      change (Path.ofLocation m).text.length ≤ (Path.ofLocation l).text.length at hle
      show (Path.ofLocation m).text.length < maxPath
      omega
  unfold canonicalize
  rw [if_neg hnul, if_neg hne, if_pos habsolute, htrace]
  rfl

end Roots

end Host

/-! ## 3. What the check needs -/

namespace Scope

variable {h host : Host} {root : Path}

/-- The check accepts a path only for an ancestor with a canonical path. -/
theorem exists_of_decideBy : ∀ {ps : List Path}, decideBy h root ps = true →
    ∃ p ∈ ps, ∃ real, h.canonicalize p = .ok real ∧ real.startsWith root = true := by
  intro ps
  induction ps with
  | nil => exact fun hdecide => by cases hdecide
  | cons p above ih =>
    intro hdecide
    rcases decideBy_cons hdecide with hreal | ⟨-, hdecide'⟩
    · exact ⟨p, List.mem_cons_self, hreal⟩
    · obtain ⟨q, hq, hreal⟩ := ih hdecide'
      exact ⟨q, List.mem_cons_of_mem p hq, hreal⟩

/-- A resolved path that folds to names goes on from the root by them, and has passed the check. -/
theorem stays_of_resolveWith {follow : Bool} {path : String} {full : Path}
    (hfold : (Path.ofString path).fold? ≠ some [])
    (hres : (beneath root).resolveWith h follow path = .ok full) :
    ∃ names, Location.Proper names ∧ names ≠ [] ∧ full = root.join names ∧
      staysWithin h root (if follow then root.join names
        else (root.join names).parent?.getD root) = true := by
  rw [resolveWith_beneath_eq] at hres
  cases hnames : (Path.ofString path).fold? with
  | none =>
    rw [hnames] at hres
    cases hres
  | some names =>
    rw [hnames] at hres hfold
    cases names with
    | nil => exact absurd rfl hfold
    | cons n rest =>
      unfold landing? at hres
      dsimp only at hres
      by_cases hstays : staysWithin h root (if follow then root.join (n :: rest)
          else (root.join (n :: rest)).parent?.getD root) = true
      · rw [if_pos hstays] at hres
        cases hres
        exact ⟨n :: rest, Path.proper_of_fold? hnames, List.cons_ne_nil n rest, rfl, hstays⟩
      · rw [if_neg hstays] at hres
        cases hres

/-- **The check accepts a path only under an absolute root**, which it can go through as it is
written, without links and without `..`. -/
theorem root_of_staysWithin (hroot : root.text ≠ []) {p : Path}
    (habsolute : root.isAbsolute = true → p.isAbsolute = true)
    (hstays : staysWithin h root p = true) :
    ∃ l, Location.Proper l ∧ h.Firm l ∧ root.components = .root :: l.map .name := by
  obtain ⟨q, hq, real, hreal, hstarts⟩ := exists_of_decideBy hstays
  obtain ⟨-, m, rfl, ht⟩ := Host.canonicalize_ok hreal
  obtain ⟨c, cs, hc, hslash⟩ := Path.exists_component hroot
  obtain ⟨rest, -, -, hrest⟩ := Path.components_of_isAbsolute (Path.isAbsolute_ofLocation m)
  unfold Path.startsWith at hstarts
  rw [List.isPrefixOf_iff_prefix, hc] at hstarts
  have hrooted : root.isAbsolute = true := by
    rw [hrest] at hstarts
    exact hslash (List.cons_prefix_cons.mp hstarts).1
  rw [if_pos (Path.isAbsolute_of_mem_upwards _ (habsolute hrooted) hq)] at ht
  have hproper := Host.proper_of_trace _ _ ht (fun _ hn => absurd hn List.not_mem_nil)
    fun _ hn => Path.written_names _ hn
  rw [Path.components_ofLocation hproper] at hstarts
  obtain ⟨rfl, more, hmore⟩ := List.cons_prefix_cons.mp hstarts
  obtain ⟨l, l', rfl, hl, -⟩ := List.map_eq_append_iff.mp hmore.symm
  exact ⟨l, hproper.left, (Host.firm_of_trace_top ht).left, by rw [hc, hl]⟩

/-- **Under a root that had no canonical path**, nothing can be reached but by the root itself: a path
that folds to names leads nowhere, if it is not refused. -/
theorem not_arrive_of_unusable (hroot : root.text ≠ []) {cause : HostError}
    (hcause : host.canonicalize root = .error cause) (hways : h.WaysIn host) {follow : Bool}
    {path : String} {full : Path} (hfold : (Path.ofString path).fold? ≠ some [])
    (hres : (beneath root).resolveWith h follow path = .ok full) (last : LastStep) (a : Arrival) :
    h.arrive last full ≠ .ok a := by
  intro harrive
  obtain ⟨names, hproper, hne, rfl, hstays⟩ := stays_of_resolveWith hfold hres
  have habove : root.isAbsolute = true → (if follow then root.join names
      else (root.join names).parent?.getD root).isAbsolute = true := by
    intro habsolute
    have hfull := (Path.isAbsolute_join hroot names).trans habsolute
    cases follow with
    | true => exact hfull
    | false =>
      show ((root.join names).parent?.getD root).isAbsolute = true
      cases hparent : (root.join names).parent? with
      | none => exact habsolute
      | some q => exact Path.isAbsolute_parent? hfull hparent
  obtain ⟨l, hl, hfirm, hcomponents⟩ := root_of_staysWithin hroot habove hstays
  have habsolute := Path.isAbsolute_of_components hcomponents
  obtain ⟨hnames, -⟩ := Path.names_of_components hcomponents
  obtain ⟨⟨hnul, -, hlen⟩, hw⟩ := Host.arrive_eq_ok_iff.mp harrive
  rw [Path.isAbsolute_join hroot, if_pos habsolute, Path.names_join hroot hproper hne] at hw
  -- the root leads to a directory, from which the names go on
  have hdir := hw.directory_before hproper hne hnames hl hfirm
  obtain ⟨more, hmore, htext⟩ := root.text_join hproper hne
  have hpos := List.length_pos_iff.mpr hmore
  rw [htext] at hnul hlen
  rw [List.length_append] at hlen
  rw [Host.canonicalize_root hways hcomponents hl hfirm hdir
    (fun hmem => hnul (List.mem_append_left more hmem)) (by omega)] at hcause
  cases hcause

end Scope

end Telefile

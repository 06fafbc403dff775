import Telefile.Proofs.Confinement.Firm
import Telefile.Proofs.Confinement.Folding
import Telefile.Proofs.Confinement.Histories

/-!
# Which paths are refused

What becomes of a client's path is decided by what it folds to. Where no link is at or beneath the
root, only a path that folds to nothing is refused: of any other, the nearest ancestor that exists
is its own canonical path, and so lies beneath the root. Why the rest of the path is not there does
not matter.

* `Scope.verdict`, `Scope.landing?` — what becomes of a path, by what it folds to;
* **`Scope.resolveWith_beneath_eq`** — and by nothing else;
* `Host.LinkFree` — a root that its path leads to, with no link there;
* **`Scope.staysWithin_of_linkFree`** — the check accepts every location beneath it;
* **`Scope.resolveWith_of_linkFree`** — so every path is accepted that folds to names;
* **`Hub.normal_forms_decide`** — folding, and what it decides.
-/

namespace Telefile

namespace Scope

/-! ## 1. What a path folds to decides -/

/-- What becomes of a path that has a place on the host, or none. -/
def verdict (given : String) (root : Path) : Option Path → Except FileError Path
  | none => .error (escape given root)
  | some full => .ok full

/-- The place on the host of what a path folds to, if that is accepted. -/
def landing? (h : Host) (root : Path) (follow : Bool) : Option (List Name) → Option Path
  | none => none
  | some [] => some root
  | some names =>
    let full := root.join names
    if staysWithin h root (if follow then full else full.parent?.getD root) then some full else none

/-- **What a path folds to decides** what becomes of it. -/
theorem resolveWith_beneath_eq (h : Host) (root : Path) (follow : Bool) (path : String) :
    (beneath root).resolveWith h follow path =
      verdict path root (landing? h root follow (Path.ofString path).fold?) := by
  unfold resolveWith landing?
  dsimp only
  rcases (Path.ofString path).fold? with _ | _ | ⟨n, names⟩
  · rfl
  · rfl
  · dsimp only
    by_cases hstays : staysWithin h root
        (if follow then root.join (n :: names) else (root.join (n :: names)).parent?.getD root) = true
    · rw [if_pos hstays, if_pos hstays]
      rfl
    · rw [if_neg hstays, if_neg hstays]
      rfl

end Scope

/-! ## 2. Without links -/

/-- The path of the root leads to it, and neither it nor an entry beneath it is a link. -/
structure Host.LinkFree (h : Host) (top : Location) : Prop where
  proper : Location.Proper top
  canonical : h.canonicalize (.ofLocation top) = .ok (.ofLocation top)
  no_link : ∀ {l target t}, top <+: l → h.entryAt? l ≠ some (.symlink target t)

namespace Scope

section LinkFree

variable {h : Host} {top : Location}

/-- No link is on the way to a location beneath the root. -/
theorem no_link_above (hfree : h.LinkFree top) {l m : Location} {n : Name} {e : Entry}
    (hup : m ++ [n] <+: top ++ l) (he : h.entryAt? (m ++ [n]) = some e) : e.isLink = false := by
  rcases List.prefix_or_prefix_of_prefix hup (List.prefix_append top l) with habove | hbeneath
  · obtain ⟨-, hfirm⟩ := (Host.canonicalize_ofLocation_iff hfree.proper).mp hfree.canonical
    obtain ⟨e', he', hlink⟩ := hfirm.entry habove
    obtain rfl := Option.some.inj (he.symm.trans he')
    exact hlink
  · cases e with
    | symlink target t => exact absurd he (hfree.no_link hbeneath)
    | _ => rfl

/-- What the check would meet beneath the root has a canonical path, its own. -/
theorem canonicalize_of_lookup (hfree : h.LinkFree top) {l : Location}
    (hl : Location.Proper (top ++ l)) {r : Location × Entry}
    (hlookup : h.lookup .entry (.ofLocation (top ++ l)) = .ok r) :
    h.canonicalize (.ofLocation (top ++ l)) = .ok (.ofLocation (top ++ l)) :=
  (Host.canonicalize_ofLocation_iff hl).mpr
    (Host.firm_of_lookup hl (fun _ _ _ => no_link_above hfree) hlookup)

/-- A canonical path beneath the root is the path itself. -/
theorem eq_of_canonicalize (hfree : h.LinkFree top) {l : Location}
    (hl : Location.Proper (top ++ l)) {real : Path}
    (hreal : h.canonicalize (.ofLocation (top ++ l)) = .ok real) :
    real = .ofLocation (top ++ l) := by
  obtain ⟨m, rfl, ht⟩ := Host.trace_of_canonicalize hl hreal
  rw [Host.eq_of_trace hl (fun _ _ _ => no_link_above hfree) ht]
  rfl

theorem startsWith_append (hl : Location.Proper (top ++ l)) :
    (Path.ofLocation (top ++ l)).startsWith (.ofLocation top) = true := by
  unfold Path.startsWith
  rw [Path.components_ofLocation hl, Path.components_ofLocation hl.left,
    List.isPrefixOf_iff_prefix, List.map_append]
  exact List.cons_prefix_cons.mpr ⟨rfl, List.prefix_append _ _⟩

/-- The check stops at a location beneath the root and accepts it, or goes on upwards. -/
theorem decideBy_beneath (hfree : h.LinkFree top) {l : Location}
    (hl : Location.Proper (top ++ l)) (above : List Path)
    (habove : l ≠ [] → decideBy h (.ofLocation top) above = true) :
    decideBy h (.ofLocation top) (.ofLocation (top ++ l) :: above) = true := by
  unfold decideBy
  cases hreal : h.canonicalize (.ofLocation (top ++ l)) with
  | ok real =>
    rw [eq_of_canonicalize hfree hl hreal]
    exact startsWith_append hl
  | error cause =>
    dsimp only
    cases hlookup : h.lookup .entry (.ofLocation (top ++ l)) with
    | ok r =>
      rw [canonicalize_of_lookup hfree hl hlookup] at hreal
      cases hreal
    | error cause' =>
      refine habove ?_
      rintro rfl
      rw [List.append_nil, hfree.canonical] at hreal
      cases hreal

/-- **The check accepts every location beneath the root**: no further up than that, it stops. -/
theorem decideBy_upwards (hfree : h.LinkFree top) (l : Location) :
    ∀ k, Location.Proper (top ++ l) →
      decideBy h (.ofLocation top) (Path.upwards (l.length + k + 1) (.ofLocation (top ++ l))) =
        true := by
  induction l using List.reverseRecOn with
  | nil =>
    intro k hl
    exact decideBy_beneath hfree hl _ fun hne => absurd rfl hne
  | append_singleton l n ih =>
    intro k hl
    have hparent : (Path.ofLocation (top ++ (l ++ [n]))).parent? = some (.ofLocation (top ++ l)) := by
      rw [← List.append_assoc] at hl ⊢
      exact Path.parent?_ofLocation hl
    unfold Path.upwards
    rw [hparent, List.length_append, List.length_singleton]
    refine decideBy_beneath hfree hl _ fun _ => ?_
    rw [Nat.add_right_comm]
    rw [← List.append_assoc] at hl
    exact ih k hl.left

theorem staysWithin_of_linkFree (hfree : h.LinkFree top) {l : Location}
    (hl : Location.Proper (top ++ l)) :
    staysWithin h (.ofLocation top) (.ofLocation (top ++ l)) = true := by
  have hlong : l.length ≤ (Path.ofLocation (top ++ l)).text.length := by
    calc l.length ≤ (top ++ l).length := by
          rw [List.length_append]
          exact Nat.le_add_left _ _
      _ ≤ _ := Path.length_le_ofLocation hl
  obtain ⟨k, hk⟩ := Nat.exists_eq_add_of_le hlong
  unfold staysWithin Path.ancestors
  rw [hk]
  exact decideBy_upwards hfree l k hl

/-- **Where no link is at or beneath the root**, a path is refused only if it folds to nothing. -/
theorem resolveWith_of_linkFree (hfree : h.LinkFree top) (follow : Bool) (path : String) :
    (beneath (.ofLocation top)).resolveWith h follow path =
      verdict path (.ofLocation top)
        ((Path.ofString path).fold?.map fun names => .ofLocation (top ++ names)) := by
  rw [resolveWith_beneath_eq]
  refine congrArg _ ?_
  cases hfold : (Path.ofString path).fold? with
  | none => rfl
  | some names =>
    have hproper := hfree.proper.append (Path.proper_of_fold? hfold)
    rcases List.eq_nil_or_concat names with rfl | ⟨l, n, hnames⟩
    · show some (Path.ofLocation top) = some (.ofLocation (top ++ []))
      rw [List.append_nil]
    · rw [List.concat_eq_append] at hnames
      have hne : names ≠ [] := by simp [hnames]
      have habove : Location.Proper (top ++ l) := by
        rw [hnames, ← List.append_assoc] at hproper
        exact hproper.left
      have hparent : (Path.ofLocation (top ++ names)).parent?.getD (.ofLocation top) =
          .ofLocation (top ++ l) := by
        rw [hnames, ← List.append_assoc] at hproper ⊢
        rw [Path.parent?_ofLocation hproper]
        rfl
      have hstays : staysWithin h (.ofLocation top)
          (if follow then .ofLocation (top ++ names) else .ofLocation (top ++ l)) = true := by
        cases follow with
        | true => exact staysWithin_of_linkFree hfree hproper
        | false => exact staysWithin_of_linkFree hfree habove
      unfold landing?
      cases names with
      | nil => exact absurd rfl hne
      | cons m rest =>
        dsimp only
        rw [Path.join_ofLocation hfree.proper hne, hparent, if_pos hstays]
        rfl

end LinkFree

end Scope

/-! ## 3. A root that stays -/

theorem Host.Confined.pass {host h : Host} {top l : Location} (hc : Host.Confined top host h)
    (hpass : host.pass l = .ok ()) : h.pass l = .ok () := by
  obtain ⟨p, t, he⟩ := Host.isDirectory_of_pass hpass
  obtain ⟨t', he'⟩ := hc.directory he
  exact (Host.pass_congr he' he).trans hpass

/-- A directory that is canonical stays so whatever is changed beneath it. -/
theorem Host.LinkFree.of_confined {host h : Host} {top : Location} (hfree : host.LinkFree top)
    (hdirs : ∀ m, m <+: top → ∃ p t, host.entryAt? m = some (.directory p t))
    (hc : Host.Confined top host h) : h.LinkFree top where
  proper := hfree.proper
  canonical := by
    obtain ⟨hnul, hfirm⟩ := (Host.canonicalize_ofLocation_iff hfree.proper).mp hfree.canonical
    refine (Host.canonicalize_ofLocation_iff hfree.proper).mpr ⟨hnul, fun m n hup => ?_⟩
    obtain ⟨e, hg, -⟩ := hfirm m n hup
    obtain ⟨hlen, hpass, hshort, -⟩ := Host.glance_eq_ok_iff.mp hg
    obtain ⟨p, t, he⟩ := hdirs _ hup
    obtain ⟨t', he'⟩ := hc.directory he
    exact ⟨_, Host.glance_eq_ok_iff.mpr ⟨hlen, hc.pass hpass, hshort, he'⟩, rfl⟩
  no_link hl he := hfree.no_link hl (hc.ways.link he)

/-- **What a path folds to decides what becomes of it.** A path folds to the names that cancelling
leaves, unless it has a beginning with more `..` than names; what it folds to is its own normal form,
and stands for it in front of other paths. Two paths with one normal form have one verdict, and one
place on the host. And where the root that was made canonical is canonical still, and no link is
there, every path is accepted that has a normal form: so it is from the start, and after every
history of requests if the root is a directory. -/
theorem Hub.normal_forms_decide :
    (∀ p : Path, p.fold? = none ↔ ∃ front, front <+: p.components ∧
      front.countP Component.isName < front.count .parent) ∧
    (∀ (p : Path) (names : List Name), p.fold? = some names ↔
      Relation.ReflTransGen Component.Cancels p.components (names.map .name)) ∧
    (∀ (p : Path) (names : List Name), p.fold? = some names →
      (Path.ofNames names).components = names.map .name ∧
        (Path.ofNames names).fold? = some names) ∧
    (∀ p q : Path, (p.behind q).fold? =
      p.fold?.bind fun names => ((Path.ofNames names).behind q).fold?) ∧
    (∀ (root : Path) (h : Host) (follow : Bool) (path path' : String),
      (Path.ofString path).fold? = (Path.ofString path').fold? →
        ∃ full?, (Scope.beneath root).resolveWith h follow path = Scope.verdict path root full? ∧
          (Scope.beneath root).resolveWith h follow path' = Scope.verdict path' root full?) ∧
    (∀ (host : Host) (root real : Path), host.Orderly → host.canonicalize root = .ok real →
      Scope.ofRoot host (some root) = .beneath real ∧
      ∃ top, Location.Proper top ∧ real = .ofLocation top ∧ host.canonicalize real = .ok real ∧
        ∀ h : Host, h.canonicalize real = .ok real →
          (∀ l target t, top <+: l → h.entryAt? l ≠ some (.symlink target t)) →
          ∀ (follow : Bool) (path : String), (Scope.beneath real).resolveWith h follow path =
            Scope.verdict path real
              ((Path.ofString path).fold?.map fun names => .ofLocation (top ++ names))) ∧
    (∀ (settings : Settings) (host : Host) (root : Path) (top : Location), host.Orderly →
      settings.root = some root → host.canonicalize root = .ok (.ofLocation top) →
      (∃ p t, host.entryAt? top = some (.directory p t)) →
      (∀ l target t, top <+: l → host.entryAt? l ≠ some (.symlink target t)) →
      ∀ (history : List HubEvent) (follow : Bool) (path : String),
        let s := serviceAfter settings host history
        s.scope.resolveWith s.host follow path = Scope.verdict path (.ofLocation top)
          ((Path.ofString path).fold?.map fun names => .ofLocation (top ++ names))) := by
  refine ⟨fun p => Path.fold?_eq_none_iff, fun p names => Path.fold?_eq_some_iff, ?_,
    Path.fold?_behind, ?_, ?_, ?_⟩
  · intro p names hfold
    have hproper := Path.proper_of_fold? hfold
    exact ⟨Path.components_ofNames hproper, Path.fold?_ofNames hproper⟩
  · intro root h follow path path' hfold
    refine ⟨_, Scope.resolveWith_beneath_eq h root follow path, ?_⟩
    rw [Scope.resolveWith_beneath_eq, hfold]
  · intro host root real horderly hreal
    obtain ⟨top, hproper, rfl, hagain⟩ := horderly.canonical hreal
    exact ⟨Scope.ofRoot_of_canonicalize hreal, top, hproper, rfl, hagain, fun h hstill hlinks follow path =>
      Scope.resolveWith_of_linkFree ⟨hproper, hstill, hlinks _ _ _⟩ follow path⟩
  · intro settings host root top horderly hsettings hreal hdir hlinks history follow path
    obtain ⟨p, t, he⟩ := hdir
    have hproper := horderly.tree.proper he
    have hdirs := fun m hm => horderly.tree.directory_of_prefix (m := m) ⟨p, t, he⟩ hm
    have hagain : host.canonicalize (.ofLocation top) = .ok (.ofLocation top) := by
      obtain ⟨_, -, htop, hagain⟩ := horderly.canonical hreal
      exact hagain
    have hg : (serviceAfter settings host history).Guarded top host :=
      serviceAfter_of_start (Service.keeps_guarded ⟨hproper, hdirs⟩)
        (Service.guarded_start hsettings hreal) history
    have hfree : host.LinkFree top := ⟨hproper, hagain, hlinks _ _ _⟩
    show (serviceAfter settings host history).scope.resolveWith _ follow path = _
    rw [hg.scope]
    exact Scope.resolveWith_of_linkFree (hfree.of_confined hdirs hg.confined) follow path

/-- A host with an empty directory `srv`, which is the working directory. -/
def Host.bare : Host := Host.fresh [Utf8.encode "srv"] ⟨0, 0⟩ none

theorem Host.orderly_bare : bare.Orderly where
  tree := by decide
  written {l e} he := by
    have hall : ∀ x ∈ bare.allEntries, 0 ∉ (Path.ofLocation x.1).text := by decide
    exact hall (l, e) (mem_allEntries_iff.mpr he)
  home m n hup := by
    have hup : m ++ [n] <+: [] ++ [Utf8.encode "srv"] := hup
    rcases List.prefix_concat_iff.mp hup with hself | hnil
    · obtain ⟨rfl, hn⟩ := List.append_inj' hself rfl
      cases hn
      exact ⟨.directory .newDirectory ⟨0, 0⟩, rfl, rfl⟩
    · exact absurd (List.prefix_nil.mp hnil) (by simp)

theorem Host.canonicalize_bare :
    bare.canonicalize (Path.ofString ".") = .ok (.ofLocation [Utf8.encode "srv"]) := by
  have hpath : Path.ofString "." = ⟨Path.dot⟩ := by decide
  have htrace : bare.trace maxLinks bare.cwd false [Path.dot] = .ok bare.cwd := by
    rw [trace_dot, trace_nil]
  rw [hpath]
  show (bare.trace maxLinks bare.cwd false [Path.dot]).map Path.ofLocation = _
  rw [htrace]
  rfl

/-- A relative root; a path that climbs too far and comes back; and two paths of one place, of which
a history has made the first. -/
theorem Hub.normal_forms_decide_bare :
    let top : Location := [Utf8.encode "srv"]
    let real : Path := .ofLocation top
    let settings : Settings := ⟨some (Path.ofString "."), 4096, false⟩
    let s := serviceAfter settings Host.bare [.join, .call 1 (.openPath (some "new") 2)]
    Host.bare.Orderly ∧ Host.bare.canonicalize (Path.ofString ".") = .ok real ∧
      (∃ p t, Host.bare.entryAt? top = some (.directory p t)) ∧
      (∀ l target t, top <+: l → Host.bare.entryAt? l ≠ some (.symlink target t)) ∧
      (∀ follow, (Scope.beneath real).resolveWith Host.bare follow "a/../../srv/a" =
        .error (Scope.escape "a/../../srv/a" real)) ∧
      (∀ follow, (Scope.beneath real).resolveWith Host.bare follow "./new//x/../y/" =
        .ok (.ofLocation (top ++ [Utf8.encode "new", Utf8.encode "y"]))) ∧
      ∀ follow, s.scope.resolveWith s.host follow "/new/y" =
        .ok (.ofLocation (top ++ [Utf8.encode "new", Utf8.encode "y"])) := by
  intro top real settings s
  have hdir : ∃ p t, Host.bare.entryAt? top = some (.directory p t) :=
    ⟨.newDirectory, ⟨0, 0⟩, rfl⟩
  have hlinks : ∀ l target t, top <+: l → Host.bare.entryAt? l ≠ some (.symlink target t) := by
    intro l target t _ he
    have hall : ∀ x ∈ Host.bare.allEntries, x.2.isLink = false := by decide
    cases hall (l, .symlink target t) (Host.mem_allEntries_iff.mpr he)
  have hclimbs : (Path.ofString "a/../../srv/a").fold? = none := by decide
  have hdots : (Path.ofString "./new//x/../y/").fold? =
      some [Utf8.encode "new", Utf8.encode "y"] := by decide
  have hslash : (Path.ofString "/new/y").fold? = some [Utf8.encode "new", Utf8.encode "y"] := by
    decide
  obtain ⟨-, -, -, -, -, hstart, hhistories⟩ := normal_forms_decide
  obtain ⟨-, top', hproper, htop, hagain, hverdict⟩ :=
    hstart Host.bare (Path.ofString ".") real Host.orderly_bare Host.canonicalize_bare
  obtain rfl : top = top' := by
    rw [← Path.names_ofLocation hproper, ← htop]
    rfl
  refine ⟨Host.orderly_bare, Host.canonicalize_bare, hdir, hlinks, fun follow => ?_,
    fun follow => ?_, fun follow => ?_⟩
  · rw [hverdict Host.bare hagain hlinks, hclimbs]
    rfl
  · rw [hverdict Host.bare hagain hlinks, hdots]
    rfl
  · have hafter := hhistories settings Host.bare (Path.ofString ".") top Host.orderly_bare rfl
      Host.canonicalize_bare hdir hlinks [.join, .call 1 (.openPath (some "new") 2)] follow "/new/y"
    rw [hslash] at hafter
    exact hafter

end Telefile

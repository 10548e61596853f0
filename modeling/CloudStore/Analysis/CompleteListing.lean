import CloudStore.Analysis.UsablePaths

/-!
# What ls leaves out

Physical entries are listed at the depth that is asked for. Indexed files are only listed where
they are in the directory itself, and those with the name of a listed physical entry are taken
for it, at whatever depth that entry is.
-/

set_option autoImplicit false

namespace CloudStore.Analysis

open CloudStore.Library
open CloudStore.Library.Posix
open CloudStore.Model
open CloudStore.Interface

/-- A path is in a directory, or at any depth below it. -/
def IsUnder (recursive : Bool) (dir path : Bytes) : Prop :=
  ∃ rest, rest ≠ [] ∧ (recursive = false → 47 ∉ rest) ∧
    path = (if dir = str "/" then dir else dir ++ str "/") ++ rest

theorem IsUnder.of_child {recursive : Bool} {dir path : Bytes} (h : IsChild dir path) :
    IsUnder recursive dir path := by
  obtain ⟨name, hne, hslash, hpath⟩ := h
  exact ⟨name, hne, fun _ => hslash, hpath⟩

/-- What is to be listed of a directory: the physical entries and the indexed files of the user,
in it or at any depth below it. -/
def InScope (w : World) (recursive : Bool) (u : ℤ) (root d : Path) : Target → Prop
  | .physical q => ∃ p, IsBelow w.fs recursive (root ++ d) p ∧ q = root ++ d ++ p
  | .indexed r => r ∈ w.rows ∧ r.userId = u ∧ r.isDir = false ∧
      IsUnder recursive (render d) r.virtualPath

/-- All that is to be listed is listed, nothing else is, and nothing is listed twice. -/
structure CompleteListing (w : World) (recursive : Bool) (u : ℤ) (root d : Path)
    (targets : List Target) : Prop where
  nodup : targets.Nodup
  complete : ∀ x, x ∈ targets ↔ InScope w recursive u root d x

/-- The indexed files to be listed are in the directory itself, and have no name of a physical
entry that is listed. -/
def FilesDirect (w : World) (recursive : Bool) (u : ℤ) (root d : Path) : Prop :=
  ∀ r ∈ w.rows, r.userId = u → r.isDir = false → IsUnder recursive (render d) r.virtualPath →
    IsChild (render d) r.virtualPath ∧
      ∀ p, IsBelow w.fs recursive (root ++ d) p → p.getLast?.getD [] ≠ baseName r.virtualPath

/-- No path is both an indexed file and a physical entry. -/
def Apart (w : World) (u : ℤ) (root : Path) : Prop :=
  ∀ p, IsBelow w.fs true root p → ¬ FileAt w u (render p) fun _ => True

instance (w : World) (u : ℤ) (root : Path) : Decidable (Apart w u root) :=
  decidable_of_iff (∀ p ∈ physicalEntries w true root, ¬ FileAt w u (render p) fun _ => True) <|
    forall_congr' fun _ => imp_congr_left mem_physicalEntries

variable {env : Env} {t : Turn World} {query : Json} {recursive : Bool} {root d : Path}

theorem mem_indexedEntries {w : World} {u : ℤ} {r : FileRow} :
    r ∈ indexedEntries w recursive u root d ↔ r ∈ w.rows ∧ ChildOf u (render d) r ∧
      ∀ p, IsBelow w.fs recursive (root ++ d) p → p.getLast?.getD [] ≠ baseName r.virtualPath := by
  unfold indexedEntries
  rw [List.mem_filter, Bool.and_eq_true, decide_eq_true_eq, decide_eq_true_eq]
  simp only [mem_physicalEntries]

theorem lsEntries_targets (w : World) (u : ℤ) :
    (lsEntries env w recursive u root d).map Prod.fst =
      (physicalEntries w recursive (root ++ d)).map (fun p => .physical (root ++ d ++ p)) ++
        (indexedEntries w recursive u root d).map .indexed := by
  unfold lsEntries
  rw [List.map_append, List.map_map, List.map_map]
  rfl

/-- Nothing is listed twice. -/
theorem lsEntries_nodup {w : World} (hexact : env.dialect = Dialect.exact) (hw : Sound env w)
    (u : ℤ) : ((lsEntries env w recursive u root d).map Prod.fst).Nodup := by
  have hrows : w.rows.Nodup := (hw.rowKeys hexact).of_map
  rw [lsEntries_targets, List.nodup_append]
  refine ⟨?_, ?_, ?_⟩
  · apply (entriesBelow_nodup _ _).map
    intro p q h
    exact List.append_cancel_left (Target.physical.inj h)
  · exact (hrows.filter _).map fun r r' h => Target.indexed.inj h
  · intro x hx y hy hxy
    obtain ⟨p, -, rfl⟩ := List.mem_map.mp hx
    obtain ⟨r, -, rfl⟩ := List.mem_map.mp hy
    exact Target.noConfusion hxy

/-- What is listed of the physical entries is what is to be listed. -/
theorem physical_mem_targets {w : World} {u : ℤ} {q : Path} :
    Target.physical q ∈ (lsEntries env w recursive u root d).map Prod.fst ↔
      InScope w recursive u root d (.physical q) := by
  rw [lsEntries_targets, List.mem_append, List.mem_map, List.mem_map]
  constructor
  · rintro (⟨p, hp, hq⟩ | ⟨r, -, hr⟩)
    · exact ⟨p, mem_physicalEntries.mp hp, (Target.physical.inj hq).symm⟩
    · exact Target.noConfusion hr
  · rintro ⟨p, hp, rfl⟩
    exact Or.inl ⟨p, mem_physicalEntries.mpr hp, rfl⟩

theorem indexed_mem_targets {w : World} {u : ℤ} {r : FileRow} :
    Target.indexed r ∈ (lsEntries env w recursive u root d).map Prod.fst ↔
      r ∈ indexedEntries w recursive u root d := by
  rw [lsEntries_targets, List.mem_append, List.mem_map, List.mem_map]
  constructor
  · rintro (⟨p, -, hp⟩ | ⟨r', hr', hr⟩)
    · exact Target.noConfusion hp
    · exact Target.indexed.inj hr ▸ hr'
  · exact fun hr => Or.inr ⟨r, hr, rfl⟩

/-- Without `recursive`, a name that is taken is a path that is both. -/
theorem filesDirect_of_apart (h : ListsDirectory t query false root d)
    (hrows : ∀ r ∈ t.sys.rows, LogicalPath r.virtualPath) {u : ℤ} (hapart : Apart t.sys u root) :
    FilesDirect t.sys false u root d := by
  intro r hr hu hdir hunder
  obtain ⟨name, hne, hslash, hpath⟩ := hunder
  have hchild : IsChild (render d) r.virtualPath := ⟨name, hne, hslash rfl, hpath⟩
  refine ⟨hchild, fun p hp hname => ?_⟩
  obtain ⟨q, hq, hq', -⟩ := (hrows r hr).names
  have hplain : ∀ n ∈ q, Plain n := fun n hn => (hq n hn).1
  have hqne : q ≠ [] := by
    rintro rfl
    exact not_isChild_root _ (hq' ▸ hchild)
  rw [hq'] at hchild
  obtain ⟨n, rfl⟩ := (isChild_render_iff (fun m hm => h.plain m (List.mem_append_right _ hm))
    hplain hqne).mp hchild
  obtain ⟨m, rfl⟩ := List.length_eq_one_iff.mp (hp.2.2 rfl)
  rw [hq', baseName_render (hplain n (by simp)).2.2.2.1] at hname
  obtain rfl : m = n := hname
  have hbelow : IsBelow t.sys.fs true root (d ++ [m]) :=
    ⟨by simp, by rw [← List.append_assoc]; exact hp.2.1, by simp⟩
  exact hapart _ hbelow ⟨r, hr, hu, hq', hdir, trivial⟩

/-- **What ls lists.** `ls` replies with the entries of `lsEntries`, and these are what is to be
listed, each once, if and only if the indexed files among it are in the directory itself and
have no name of a physical entry that is listed. Without `recursive` they are and have none where
no path is both. -/
theorem ls_complete_iff (hexact : env.dialect = Dialect.exact) (hw : Coherent env t.sys)
    (hrows : ∀ r ∈ t.sys.rows, LogicalPath r.virtualPath)
    (h : ListsDirectory t query recursive root d) (seq : ℕ) :
    RepliesWith env t query seq d
        (lsEntries env t.sys recursive t.conn.session.userId root d) ∧
      (CompleteListing t.sys recursive t.conn.session.userId root d
          ((lsEntries env t.sys recursive t.conn.session.userId root d).map Prod.fst) ↔
        FilesDirect t.sys recursive t.conn.session.userId root d) ∧
      (recursive = false → Apart t.sys t.conn.session.userId root →
        FilesDirect t.sys recursive t.conn.session.userId root d) := by
  refine ⟨onList_replies (hexact ▸ exact_folds) hw.sound.links hrows h seq, ?_, ?_⟩
  rotate_left
  · rintro rfl hapart
    exact filesDirect_of_apart h hrows hapart
  constructor
  · intro hcomplete r hr hu hdir hunder
    have hmem := indexed_mem_targets.mp ((hcomplete.complete (.indexed r)).mpr ⟨hr, hu, hdir, hunder⟩)
    obtain ⟨-, hchild, hnames⟩ := mem_indexedEntries.mp hmem
    exact ⟨hchild.2.2, hnames⟩
  · intro hdirect
    refine ⟨lsEntries_nodup hexact hw.sound _, ?_⟩
    rintro (q | r)
    · exact physical_mem_targets
    · rw [indexed_mem_targets, mem_indexedEntries]
      constructor
      · rintro ⟨hr, ⟨hu, hdir, hchild⟩, -⟩
        exact ⟨hr, hu, hdir, IsUnder.of_child hchild⟩
      · rintro ⟨hr, hu, hdir, hunder⟩
        obtain ⟨hchild, hnames⟩ := hdirect r hr hu hdir hunder
        exact ⟨hr, ⟨hu, hdir, hchild⟩, hnames⟩

/-- The root of the sample user, without what is below its directory. -/
theorem ls_complete_root : ∃ (s : ServerState) (c : Connection), s.conns 0 = some c ∧
    CompleteListing s.world false c.session.userId sampleRoot []
      ((lsEntries Sample.env s.world false c.session.userId sampleRoot []).map Prod.fst) := by
  have hlistings := filledDirectory_listings
  have hapart : ∃ c ∈ (Sample.after filledDirectory).conns 0,
      Apart (Sample.after filledDirectory).world c.session.userId sampleRoot := by
    decide +kernel
  generalize Sample.after filledDirectory = s at hlistings hapart
  obtain ⟨c, hc, h⟩ := hlistings
  obtain ⟨c', hc', hapart⟩ := hapart
  obtain rfl := Option.some.inj (hc.symm.trans hc')
  have hroot := (h false).1
  have hls := ls_complete_iff rfl hroot.coherent hroot.rows hroot.lists 1
  exact ⟨s, c, hc, hls.2.1.mpr (hls.2.2 rfl hapart)⟩

/-- With what is below it, the file in the directory is left out. -/
theorem ls_leaves_out : ∃ (s : ServerState) (c : Connection), s.conns 0 = some c ∧
    Listing s c "/" true [] ∧ Apart s.world c.session.userId sampleRoot ∧
    RepliesWith Sample.env { sys := s.world, conn := c } (listRequest "/" true) 1 []
      (lsEntries Sample.env s.world true c.session.userId sampleRoot []) ∧
    ¬ CompleteListing s.world true c.session.userId sampleRoot []
      ((lsEntries Sample.env s.world true c.session.userId sampleRoot []).map Prod.fst) := by
  have hlistings := filledDirectory_listings
  have hfacts : ∃ c ∈ (Sample.after filledDirectory).conns 0,
      Apart (Sample.after filledDirectory).world c.session.userId sampleRoot ∧
      FileAt (Sample.after filledDirectory).world c.session.userId (str "/d/a") fun _ => True := by
    decide +kernel
  generalize Sample.after filledDirectory = s at hlistings hfacts
  obtain ⟨c, hc, h⟩ := hlistings
  obtain ⟨c', hc', hapart, r, hr, hu, hpath, hdir, -⟩ := hfacts
  obtain rfl := Option.some.inj (hc.symm.trans hc')
  have hroot := (h true).1
  refine ⟨s, c, hc, hroot, hapart, onList_replies exact_folds hroot.coherent.sound.links hroot.rows
    hroot.lists 1, fun hcomplete => ?_⟩
  have hscope : InScope s.world true c.session.userId sampleRoot [] (.indexed r) :=
    ⟨hr, hu, hdir, str "d/a", by decide, by simp, hpath.trans (by decide)⟩
  have hlisted := indexed_mem_targets.mp ((hcomplete.complete (.indexed r)).mpr hscope)
  have hchild := (mem_indexedEntries.mp hlisted).2.1.2.2
  rw [hpath] at hchild
  exact absurd hchild (by decide)

end CloudStore.Analysis

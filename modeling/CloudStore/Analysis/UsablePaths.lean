import CloudStore.Analysis.IndexedChildren
import CloudStore.Interface.Coherence
import CloudStore.Interface.PlainResolution
import CloudStore.Interface.Requests

/-!
# The paths that ls returns

An entry of the index has its own path. A physical entry has the path from the listed directory
on, which is the path of that entry below the root of the user only if the root is what is
listed.
-/

set_option autoImplicit false

namespace CloudStore.Analysis

open CloudStore.Library
open CloudStore.Library.Action (bind_apply bind_ok)
open CloudStore.Library.Posix
open CloudStore.Library.StackWalk (walk)
open CloudStore.Model
open CloudStore.Model.Connection
open CloudStore.Model.TransferService
open CloudStore.Model.World (backend files)
open CloudStore.Interface

/-! ## What is listed -/

/-- A request of a user to list the directory `d` below the root `root` of the user. -/
structure ListsDirectory (t : Turn World) (query : Json) (recursive : Bool) (root d : Path) :
    Prop where
  authed : t.conn.authed = true
  asks : ∃ data path, query.item (str "data") = .ok data ∧
    stringArg data "path" "/" = .ok path ∧ boolArg data "recursive" = .ok recursive ∧
    PathGuard.normalizeLogical path = .ok ([47].intercalate d)
  userRoot : realpath t.sys.fs t.conn.session.rootDir = .ok (render root)
  directory : t.sys.fs.entry (root ++ d) = some .dir

/-- What an entry of a listing stands for. -/
inductive Target where
  | physical (p : Path)
  | indexed (r : FileRow)

/-- The physical entries that are listed, from the directory on. -/
def physicalEntries (w : World) (recursive : Bool) (p : Path) : List Path :=
  entriesBelow w.fs recursive ((w.fs.listing.map List.length).foldr max 0 + 1) p

/-- The indexed files that are listed: those that have no name of a physical entry. -/
def indexedEntries (w : World) (recursive : Bool) (u : ℤ) (root d : Path) : List FileRow :=
  w.rows.filter fun r => decide (ChildOf u (render d) r) &&
    decide (∀ p ∈ physicalEntries w recursive (root ++ d),
      p.getLast?.getD [] ≠ baseName r.virtualPath)

/-- The entries of a listing, with what they stand for. -/
def lsEntries (env : Env) (w : World) (recursive : Bool) (u : ℤ) (root d : Path) :
    List (Target × Json) :=
  (physicalEntries w recursive (root ++ d)).map (fun p =>
      (.physical (root ++ d ++ p), entryJson (entryAt env w.fs (root ++ d) [] p))) ++
    (indexedEntries w recursive u root d).map fun r => (.indexed r, pendingJson (listed r))

/-- `ls` replies with these entries of a directory. -/
def RepliesWith (env : Env) (t : Turn World) (query : Json) (seq : ℕ) (d : Path)
    (entries : List (Target × Json)) : Prop :=
  ∃ t', t'.sys = t.sys ∧ t'.conn = t.conn ∧ t'.sent = t.sent ∧
    onList (backend env) query seq t =
      sendOk seq (.obj [(str "entries", .arr (entries.map Prod.snd)), (str "path", .str (render d))]) t'

variable {env : Env} {t : Turn World} {query : Json} {recursive : Bool} {root d : Path}

theorem ListsDirectory.plain (h : ListsDirectory t query recursive root d) :
    ∀ n ∈ root ++ d, Plain n :=
  t.sys.fs.plain_of_entry (by simp [h.directory])

theorem ListsDirectory.rootOccupied (h : ListsDirectory t query recursive root d) :
    t.sys.fs.entry root ≠ none := by
  have hdir := h.directory
  by_cases hd : d = []
  · rw [hd, List.append_nil] at hdir
    simp [hdir]
  · have hroot := t.sys.fs.dir_of_below (p := root) hd (by simp [hdir])
    simp [hroot]

/-- The directory is a logical path. -/
theorem ListsDirectory.logical (h : ListsDirectory t query recursive root d) :
    LogicalPath (render d) := by
  obtain ⟨data, path, -, -, -, hnorm⟩ := h.asks
  exact ⟨path, _, hnorm, rfl⟩

/-- The last part of the text of a path. -/
theorem baseName_render {p : Path} {n : Name} (hn : 47 ∉ n) : baseName (render (p ++ [n])) = n := by
  have htake : ∀ s : Bytes, baseName (s ++ 47 :: n) = n := by
    intro s
    unfold baseName
    rw [List.reverse_append, List.reverse_cons, List.append_assoc,
      List.takeWhile_append_of_pos]
    · simp
    · intro c hc
      simp only [decide_eq_true_eq]
      rintro rfl
      exact hn (List.mem_reverse.mp hc)
  rw [render_append_singleton]
  split_ifs
  · exact htake []
  · exact htake _

/-- Of the rows that `listIndexed` returns, those remain that have a name, and no name of a
physical entry. -/
theorem indexedEntries_eq {fold : UInt8 → UInt8} (hlike : Folds env.dialect fold) {w : World}
    (hrows : ∀ r ∈ w.rows, LogicalPath r.virtualPath) (hdir : LogicalPath (render d)) (u : ℤ) :
    ((w.rows.filter fun r => !nested (dirPrefix (render d)) r.virtualPath && (r.userId = u &&
        !r.isDir && (env.dialect.samePath r.virtualPath (render d) ||
          env.dialect.like r.virtualPath (dirPrefix (render d) ++ str "%")))).map listed).filter
      (fun f => decide (baseName f.virtualPath ≠ [] ∧
        ¬ (((physicalEntries w recursive (root ++ d)).map (entryAt env w.fs (root ++ d) [])).any
          fun e => decide (e.name = baseName f.virtualPath)) = true)) =
      (indexedEntries w recursive u root d).map listed := by
  rw [List.filter_map, List.filter_filter]
  unfold indexedEntries
  apply congrArg (List.map listed)
  apply List.filter_congr
  intro r hr
  obtain ⟨q, hq, hpath⟩ := (hrows r hr).render
  have hplain : ∀ n ∈ q, Plain n := fun n hn => (hq n hn).1
  have hseen : (((physicalEntries w recursive (root ++ d)).map
      (entryAt env w.fs (root ++ d) [])).any fun e => decide (e.name = baseName r.virtualPath)) = true ↔
      ¬ ∀ p ∈ physicalEntries w recursive (root ++ d),
        p.getLast?.getD [] ≠ baseName r.virtualPath := by
    simp [entryAt]
  have hlisted : (listed r).virtualPath = r.virtualPath := rfl
  rw [Bool.eq_iff_iff, Bool.and_eq_true, Function.comp_apply, decide_eq_true_eq, hlisted, hseen,
    not_not, Bool.and_eq_true (decide (ChildOf u (render d) r)), decide_eq_true_eq,
    decide_eq_true_eq]
  rcases List.eq_nil_or_concat q with rfl | ⟨a, n, rfl⟩
  · -- the root is no child, and has no name
    rw [hpath]
    apply iff_of_false
    · exact fun h => h.1.1 (by decide)
    · rintro ⟨⟨-, -, hchild⟩, -⟩
      exact not_isChild_root _ (hpath ▸ hchild)
  · rw [List.concat_eq_append] at *
    have hname : baseName r.virtualPath ≠ [] := by
      rw [hpath, baseName_render (hplain n (by simp)).2.2.2.1]
      exact (hplain n (by simp)).1
    rw [listed_iff_child hlike hdir u hpath hplain (by simp)]
    exact ⟨fun h => ⟨h.2, h.1.2⟩, fun h => ⟨⟨hname, h.2⟩, h.1⟩⟩

/-- **What ls replies with** are the physical entries and the indexed files that are listed. -/
theorem onList_replies {fold : UInt8 → UInt8} (hlike : Folds env.dialect fold)
    (hlinks : t.sys.fs.NoLinks) (hrows : ∀ r ∈ t.sys.rows, LogicalPath r.virtualPath)
    (h : ListsDirectory t query recursive root d) (seq : ℕ) :
    RepliesWith env t query seq d
      (lsEntries env t.sys recursive t.conn.session.userId root d) := by
  have hlogical := h.logical
  have hplain := h.plain
  obtain ⟨data, path, hdata, hpath, hrec, hnorm⟩ := h.asks
  have hocc : t.sys.fs.entry (root ++ d) ≠ none := by simp [h.directory]
  have hroot := h.rootOccupied
  have hresolve := @resolve_plain env t.sys hlinks t.conn.session.rootDir path root d true
    h.userRoot hroot (fun n hn => hplain n (List.mem_append_right _ hn)) hnorm
  rw [if_pos (reachable_occupied hocc)] at hresolve
  have hdir : (if [47].intercalate d = [] then str "/" else str "/" ++ [47].intercalate d) =
      render d := by
    split_ifs with hnil
    · rw [← slash_normal, hnil]
      rfl
    · rfl
  have hlist := @listDir_run env t.sys (root ++ d) recursive h.directory
  have hread : (do
      let phys ← resolveUserPath (backend env) path true
      record (.listDir phys recursive)
      system (FileManager.listDir (backend env).files phys recursive) :
        Act (Turn World) (List FileEntry)) t =
      (.ok ((physicalEntries t.sys recursive (root ++ d)).map
        (entryAt env t.sys.fs (root ++ d) [])),
        { t with calls := ⟨t.sys, t.conn, .listDir (render (root ++ d)) recursive⟩ :: t.calls }) := by
    rw [resolved_run h.authed hresolve]
    have hlist := @listDir_run env t.sys (root ++ d) recursive h.directory
    simp only [bind_apply, record, system, Action.change_apply, Action.zoom_apply,
      World.backend_files, hlist]
    rfl
  refine ⟨{ t with
    calls := ⟨t.sys, t.conn, .listIndexed t.conn.session.userId (render d)⟩ ::
      ⟨t.sys, t.conn, .listDir (render (root ++ d)) recursive⟩ :: t.calls }, rfl, rfl, rfl, ?_⟩
  unfold onList
  rw [bind_ok (requireLogin_run h.authed), lifted_run hdata, lifted_run hpath, lifted_run hdata,
    lifted_run hrec, lifted_run hnorm]
  dsimp only
  rw [hdir, caught_run hread]
  have hindexed := listIndexed_eq env t.sys t.conn.session.userId (render d)
  have hpending := @indexedEntries_eq env recursive root d fold hlike t.sys hrows hlogical
    t.conn.session.userId
  rw [fields_run]
  dsimp only
  rw [called_ok (t := { t with
    calls := ⟨t.sys, t.conn, .listDir (render (root ++ d)) recursive⟩ :: t.calls }) hindexed,
    hpending]
  unfold lsEntries
  rw [List.map_append, List.map_map, List.map_map, List.map_map, List.map_map]
  rfl

/-! ## What a path designates -/

/-- The entry that a logical path designates: an indexed file is looked up first, and a physical
entry is what the path is resolved to. -/
def Designates (env : Env) (w : World) (session : UserSession) (path : Bytes) : Target → Prop
  | .indexed r => ∃ norm, PathGuard.normalizeLogical path = .ok norm ∧
      lookupPlainFile (backend env) session.userId (str "/" ++ norm) w = (.ok (some r), w) ∧
      ∃ phys, PathGuard.resolve (files env) session.rootDir path false w = (.ok phys, w)
  | .physical p => ∃ norm, PathGuard.normalizeLogical path = .ok norm ∧
      lookupPlainFile (backend env) session.userId (str "/" ++ norm) w = (.ok none, w) ∧
      ∀ mustExist, PathGuard.resolve (files env) session.rootDir path mustExist w =
        (.ok (render p), w)

/-- The path of an entry, given back, designates what the entry stands for. -/
def Usable (env : Env) (w : World) (session : UserSession) (x : Target × Json) : Prop :=
  ∃ path, stringArg x.2 "path" "" = .ok path ∧ Designates env w session path x.1

/-- Physical entries are listed of the root only; they have legal names, and none of them is an
indexed file as well. -/
def PathsFromRoot (w : World) (recursive : Bool) (u : ℤ) (root d : Path) : Prop :=
  ∀ p, IsBelow w.fs recursive (root ++ d) p →
    d = [] ∧ (∀ n ∈ p, ¬ Illegal n) ∧ ¬ FileAt w u (render p) fun _ => True

theorem mem_physicalEntries {w : World} {p q : Path} :
    q ∈ physicalEntries w recursive p ↔ IsBelow w.fs recursive p q :=
  mem_entriesBelow (heightBelow_listing w.fs p) q

/-- It is enough to look at the entries that are listed. -/
instance (w : World) (recursive : Bool) (u : ℤ) (root d : Path) :
    Decidable (PathsFromRoot w recursive u root d) :=
  decidable_of_iff (∀ p ∈ physicalEntries w recursive (root ++ d),
    d = [] ∧ (∀ n ∈ p, ¬ Illegal n) ∧ ¬ FileAt w u (render p) fun _ => True) <|
    forall_congr' fun _ => imp_congr_left mem_physicalEntries

section

variable (hexact : env.dialect = Dialect.exact)
include hexact

/-- No file is found where there is none. -/
theorem lookupPlainFile_none {w : World} (hw : Sound env w) {u : ℤ} {p : Bytes} :
    lookupPlainFile (backend env) u p w = (.ok none, w) ↔ ¬ FileAt w u p fun _ => True := by
  rw [lookupPlainFile_eq, Prod.mk.injEq, Except.ok.injEq, and_iff_left rfl]
  constructor
  · rintro hnone ⟨r, hr, rfl, rfl, hdir, -⟩
    rw [find_row hexact hw hr] at hnone
    simp [hdir] at hnone
  · intro hfile
    rw [Option.filter_eq_none_iff]
    intro r hfind hdir
    obtain ⟨hu, hp⟩ := (isRow_exact hexact).mp (List.find?_some hfind)
    exact hfile ⟨r, List.mem_of_find?_eq_some hfind, hu, hp, by simpa using hdir, trivial⟩

/-- The path of a physical entry designates it if and only if the listed directory is the root,
the names are legal, and the path is no indexed file. -/
theorem physical_designates_iff (hw : Sound env t.sys)
    (h : ListsDirectory t query recursive root d) {p : Path}
    (hp : IsBelow t.sys.fs recursive (root ++ d) p) :
    Designates env t.sys t.conn.session (render p) (.physical (root ++ d ++ p)) ↔
      d = [] ∧ (∀ n ∈ p, ¬ Illegal n) ∧ ¬ FileAt t.sys t.conn.session.userId (render p) fun _ => True := by
  have hplain : ∀ n ∈ root ++ d ++ p, Plain n := t.sys.fs.plain_of_entry hp.2.1
  have hp' : ∀ n ∈ p, Plain n := fun n hn => hplain n (List.mem_append_right _ hn)
  have hroot := h.rootOccupied
  have hresolve := fun hnorm mustExist => @resolve_plain env t.sys hw.links
    t.conn.session.rootDir (render p) root p mustExist h.userRoot hroot hp' hnorm
  constructor
  · rintro ⟨norm, hnorm, hlookup, hreaches⟩
    have hlegal := legal_of_normalizeLogical hp' hnorm
    have hnorm' := normalizeLogical_render hp' hlegal
    obtain rfl := Except.ok.inj (hnorm.symm.trans hnorm')
    rw [slash_normal] at hlookup
    refine ⟨?_, hlegal, (lookupPlainFile_none hexact hw).mp hlookup⟩
    have hvalue := hresolve hnorm' false
    rw [hreaches false] at hvalue
    split_ifs at hvalue with hreach
    · have hplain' : ∀ n ∈ root ++ p, Plain n := by
        intro n hn
        rcases List.mem_append.mp hn with hn | hn
        · exact t.sys.fs.plain_of_entry hroot n hn
        · exact hp' n hn
      have hpaths := render_injective hplain hplain' (Except.ok.inj (Prod.mk.inj hvalue).1)
      have hlen := congrArg List.length hpaths
      simp only [List.length_append] at hlen
      exact List.length_eq_zero_iff.mp (by omega)
    · obtain ⟨e, he⟩ := hvalue
      simp at he
  · rintro ⟨rfl, hlegal, hfile⟩
    have hnorm := normalizeLogical_render hp' hlegal
    refine ⟨_, hnorm, (lookupPlainFile_none hexact hw).mpr hfile, fun mustExist => ?_⟩
    have hvalue := hresolve hnorm mustExist
    have hocc := hp.2.1
    rw [List.append_nil] at hocc ⊢
    rwa [if_pos (reachable_occupied hocc)] at hvalue

/-- The path of an indexed file that is listed designates it. -/
theorem indexed_designates (hw : Sound env t.sys)
    (hrows : ∀ r ∈ t.sys.rows, LogicalPath r.virtualPath)
    (h : ListsDirectory t query recursive root d) {r : FileRow} (hr : r ∈ t.sys.rows)
    (hchild : ChildOf t.conn.session.userId (render d) r) :
    Designates env t.sys t.conn.session r.virtualPath (.indexed r) := by
  obtain ⟨hu, hdir, hchild⟩ := hchild
  obtain ⟨q, hq, hpath, hnorm⟩ := (hrows r hr).names
  have hplain : ∀ n ∈ q, Plain n := fun n hn => (hq n hn).1
  have hd : ∀ n ∈ d, Plain n := fun n hn => h.plain n (List.mem_append_right _ hn)
  have hne : q ≠ [] := by
    rintro rfl
    exact not_isChild_root _ (hpath ▸ hchild)
  rw [hpath] at hchild hnorm ⊢
  obtain ⟨n, rfl⟩ := (isChild_render_iff hd hplain hne).mp hchild
  have hroot := h.rootOccupied
  refine ⟨_, hnorm, ?_, ?_⟩
  · have hfind := find_row hexact hw hr
    rw [hu, hpath] at hfind
    rw [slash_normal, lookupPlainFile_eq, hfind]
    simp [hdir]
  · have hvalue := @resolve_plain env t.sys hw.links t.conn.session.rootDir (render (d ++ [n])) root
      (d ++ [n]) false h.userRoot hroot hplain hnorm
    have hreach : Reachable t.sys.fs false root (d ++ [n]) :=
      Or.inr ⟨rfl, by simp [h.directory]⟩
    rw [if_pos hreach] at hvalue
    exact ⟨_, hvalue⟩

/-- **The paths that ls returns.** `ls` replies with the entries of `lsEntries`, and the path of
each of them designates what the entry stands for if and only if the physical entries among them
are those of the root, with legal names, and no indexed files as well. -/
theorem ls_paths_usable_iff (hw : Coherent env t.sys)
    (hrows : ∀ r ∈ t.sys.rows, LogicalPath r.virtualPath)
    (h : ListsDirectory t query recursive root d) (seq : ℕ) :
    RepliesWith env t query seq d
        (lsEntries env t.sys recursive t.conn.session.userId root d) ∧
      ((∀ x ∈ lsEntries env t.sys recursive t.conn.session.userId root d,
          Usable env t.sys t.conn.session x) ↔
        PathsFromRoot t.sys recursive t.conn.session.userId root d) := by
  refine ⟨onList_replies (hexact ▸ exact_folds) hw.sound.links hrows h seq, ?_⟩
  constructor
  · intro husable p hp
    obtain ⟨path, hpath, hdesignates⟩ := husable _ (List.mem_append_left _
      (List.mem_map_of_mem (mem_physicalEntries.mpr hp)))
    have hpath' : stringArg (entryJson (entryAt env t.sys.fs (root ++ d) [] p)) "path" "" =
        .ok (render p) := rfl
    obtain rfl := Except.ok.inj (hpath.symm.trans hpath')
    exact (physical_designates_iff hexact hw.sound h hp).mp hdesignates
  · intro hroot x hx
    rcases List.mem_append.mp hx with hx | hx
    · obtain ⟨p, hp, rfl⟩ := List.mem_map.mp hx
      have hbelow := mem_physicalEntries.mp hp
      exact ⟨render p, rfl, (physical_designates_iff hexact hw.sound h hbelow).mpr (hroot p hbelow)⟩
    · obtain ⟨r, hr, rfl⟩ := List.mem_map.mp hx
      obtain ⟨hr, hlisted⟩ := List.mem_filter.mp hr
      rw [Bool.and_eq_true, decide_eq_true_eq] at hlisted
      exact ⟨r.virtualPath, rfl, indexed_designates hexact hw.sound hrows h hr hlisted.1⟩

end

/-! ## Directories of the sample user -/

/-- A request to list a directory. -/
def listRequest (path : String) (recursive : Bool) : Json :=
  .obj [(str "cmd", .str (str "ls")), (str "data", .obj [(str "path", .str (str path)),
    (str "recursive", .bool recursive)]), (str "seq", .int 1)]

/-- The root of the sample user. -/
def sampleRoot : Path := [str "data", str "users", str "alice"]

/-- A directory with a directory and a file in it. -/
def filledDirectory : List Event :=
  Sample.login ++ [.frame 0 (request "mkdir" [("path", .str (str "/d"))]),
    .frame 0 (request "mkdir" [("path", .str (str "/d/e"))])] ++ Sample.uploadEmpty "/d/a"

/-- A connection of the sample user in a coherent store, on which a directory is listed. -/
structure Listing (s : ServerState) (c : Connection) (path : String) (recursive : Bool)
    (d : Path) : Prop where
  coherent : Coherent Sample.env s.world
  rows : ∀ r ∈ s.world.rows, LogicalPath r.virtualPath
  lists : ListsDirectory { sys := s.world, conn := c } (listRequest path recursive) recursive
    sampleRoot d

theorem filledDirectory_coherent : Coherent Sample.env (Sample.after filledDirectory).world := by
  have hallows : (Server.machine Sample.env).Allows (Avoids Sample.env (Unsettles Sample.env))
      (started Sample.env 4096 Sample.entropy) filledDirectory := by
    decide +kernel
  exact run_coherent rfl (playback_run hallows)

/-- What is to be looked up in a state for two directories to be listed there. -/
theorem listings_of_facts {s : ServerState} (hcoherent : Coherent Sample.env s.world)
    (hfacts : ∃ c ∈ s.conns 0, c.authed = true ∧
      realpath s.world.fs c.session.rootDir = .ok (render sampleRoot) ∧
      s.world.fs.entry (sampleRoot ++ []) = some .dir ∧
      s.world.fs.entry (sampleRoot ++ [str "d"]) = some .dir ∧
      ∀ r ∈ s.world.rows, LogicalPath r.virtualPath) :
    ∃ c ∈ s.conns 0, ∀ recursive, Listing s c "/" recursive [] ∧
      Listing s c "/d" recursive [str "d"] := by
  obtain ⟨c, hc, hauthed, hroot, hdir, hsub, hrows⟩ := hfacts
  have hasks : ∀ path recursive d, PathGuard.normalizeLogical (str path) = .ok ([47].intercalate d) →
      ∃ data a, (listRequest path recursive).item (str "data") = .ok data ∧
        stringArg data "path" "/" = .ok a ∧ boolArg data "recursive" = .ok recursive ∧
        PathGuard.normalizeLogical a = .ok ([47].intercalate d) := by
    intro path recursive d hnorm
    exact ⟨.obj [(str "path", .str (str path)), (str "recursive", .bool recursive)], str path, rfl,
      rfl, rfl, hnorm⟩
  refine ⟨c, hc, fun recursive => ⟨⟨hcoherent, hrows, hauthed, ?_, hroot, hdir⟩,
    ⟨hcoherent, hrows, hauthed, ?_, hroot, hsub⟩⟩⟩
  · exact hasks "/" recursive [] (by decide)
  · exact hasks "/d" recursive [str "d"] (by decide)

theorem filledDirectory_listings : ∃ c ∈ (Sample.after filledDirectory).conns 0, ∀ recursive,
    Listing (Sample.after filledDirectory) c "/" recursive [] ∧
      Listing (Sample.after filledDirectory) c "/d" recursive [str "d"] := by
  apply listings_of_facts filledDirectory_coherent
  decide +kernel

/-- The root of the sample user, with a directory in it. -/
theorem ls_paths_usable_root : ∃ (s : ServerState) (c : Connection), s.conns 0 = some c ∧
    ∀ x ∈ lsEntries Sample.env s.world false c.session.userId sampleRoot [],
      Usable Sample.env s.world c.session x := by
  have hlistings := filledDirectory_listings
  have hpaths : ∃ c ∈ (Sample.after filledDirectory).conns 0,
      PathsFromRoot (Sample.after filledDirectory).world false c.session.userId sampleRoot [] := by
    decide +kernel
  generalize Sample.after filledDirectory = s at hlistings hpaths
  obtain ⟨c, hc, h⟩ := hlistings
  obtain ⟨c', hc', hpaths⟩ := hpaths
  obtain rfl := Option.some.inj (hc.symm.trans hc')
  have hroot := (h false).1
  exact ⟨s, c, hc, (ls_paths_usable_iff rfl hroot.coherent hroot.rows hroot.lists 1).2.mpr hpaths⟩

/-- A directory in `/d` is listed with the path `/e`. -/
theorem ls_loses_directory : ∃ (s : ServerState) (c : Connection), s.conns 0 = some c ∧
    Listing s c "/d" false [str "d"] ∧
    RepliesWith Sample.env { sys := s.world, conn := c } (listRequest "/d" false) 1 [str "d"]
      (lsEntries Sample.env s.world false c.session.userId sampleRoot [str "d"]) ∧
    ¬ ∀ x ∈ lsEntries Sample.env s.world false c.session.userId sampleRoot [str "d"],
      Usable Sample.env s.world c.session x := by
  have hlistings := filledDirectory_listings
  have hlisted : [str "e"] ∈ physicalEntries (Sample.after filledDirectory).world false
      (sampleRoot ++ [str "d"]) := by
    decide +kernel
  generalize Sample.after filledDirectory = s at hlistings hlisted
  obtain ⟨c, hc, h⟩ := hlistings
  have hd := (h false).2
  refine ⟨s, c, hc, hd, onList_replies exact_folds hd.coherent.sound.links hd.rows hd.lists 1, ?_⟩
  intro husable
  obtain ⟨path, hpath, hdesignates⟩ := husable _ (List.mem_append_left _
    (List.mem_map_of_mem hlisted))
  obtain rfl : path = render [str "e"] := (Except.ok.inj hpath).symm
  have hroot := (physical_designates_iff (t := { sys := s.world, conn := c }) rfl
    hd.coherent.sound hd.lists (mem_physicalEntries.mp hlisted)).mp hdesignates
  exact absurd hroot.1 (by decide)

end CloudStore.Analysis

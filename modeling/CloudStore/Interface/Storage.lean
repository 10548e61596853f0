import CloudStore.Interface.PathText
import CloudStore.Library.TreeFrame
import CloudStore.Model.World

/-!
# The storage root

Where the texts that the server builds lead: below `users`, to a part file, or to an
object. In a tree without links a text that has an md5 in it leads to the object of a
32-hex md5 only if that md5 is its last component (`objectText_last`, `partText_clear`).
-/

set_option autoImplicit false

namespace CloudStore.Interface

open CloudStore.Library (Bytes Name Path Plain FileTree Keeps)
open CloudStore.Library.Posix
open CloudStore.Model
open CloudStore.Model.World (usersDir objectsDir tmpDir objectPath)

/-! ## Bytes -/

theorem hexDigit_ne {c : UInt8} (h : isHexDigit c = true) :
    c ≠ 0 ∧ c ≠ 47 ∧ c ≠ 46 ∧ c ≠ 116 ∧ c ≠ 32 ∧ c.toNat / 64 ≠ 2 := by
  have key : ∀ n < 256, isHexDigit (UInt8.ofNat n) = true →
      UInt8.ofNat n ≠ 0 ∧ UInt8.ofNat n ≠ 47 ∧ UInt8.ofNat n ≠ 46 ∧ UInt8.ofNat n ≠ 116 ∧
        UInt8.ofNat n ≠ 32 ∧ (UInt8.ofNat n).toNat / 64 ≠ 2 := by
    decide +kernel
  have hc := key c.toNat c.toNat_lt
  rw [UInt8.ofNat_toNat] at hc
  exact hc h

/-- A hexadecimal text has no slash and no zero byte. -/
theorem hex_clean {m : Bytes} (h : ∀ c ∈ m, isHexDigit c = true) : 47 ∉ m ∧ 0 ∉ m ∧ 46 ∉ m := by
  refine ⟨fun hc => ?_, fun hc => ?_, fun hc => ?_⟩
  · exact (hexDigit_ne (h _ hc)).2.1 rfl
  · exact (hexDigit_ne (h _ hc)).1 rfl
  · exact (hexDigit_ne (h _ hc)).2.2.1 rfl

/-- Names of hexadecimal digits are plain. -/
theorem hex_plain {m : Bytes} (h : ∀ c ∈ m, isHexDigit c = true) (hne : m ≠ []) : Plain m := by
  obtain ⟨hslash, hzero, hdot⟩ := hex_clean h
  exact ⟨hne, fun h0 => hdot (by simp [h0]), fun h0 => hdot (by simp [h0]), hslash, hzero⟩

theorem Hex32.plain {m : Bytes} (h : Hex32 m) : Plain m :=
  hex_plain h.2 fun h0 => by
    have := h.1
    simp [h0] at this

theorem Hex32.take_plain {m : Bytes} (h : Hex32 m) : Plain (m.take 2) :=
  hex_plain (fun c hc => h.2 c (List.mem_of_mem_take hc)) fun h0 => by
    have hlen := congrArg List.length h0
    rw [List.length_take, h.1] at hlen
    simp at hlen

theorem cstr_hex {m : Bytes} (h : Hex32 m) : cstr m = m :=
  cstr_of_zero_not_mem (hex_clean h.2).2.1

/-- The last component is what follows the last slash. -/
theorem last_component_cases {s m : Bytes} (h : (components s).getLast? = some m) :
    s = m ∨ ∃ pre, s = pre ++ 47 :: m := by
  have hs : [47].intercalate (components s) = s := List.intercalate_splitOn 47
  have hne := components_ne_nil s
  rw [List.getLast?_eq_some_getLast hne, Option.some.injEq] at h
  have hsplit := List.dropLast_append_getLast hne
  rw [h] at hsplit
  by_cases hinit : (components s).dropLast = []
  · rw [hinit, List.nil_append] at hsplit
    left
    rw [← hs, ← hsplit]
    simp
  · right
    refine ⟨[47].intercalate (components s).dropLast, ?_⟩
    conv_lhs => rw [← hs, ← hsplit, intercalate_append_singleton _ _ _ hinit]
    simp

/-- The last component is a suffix of the text. -/
theorem last_component_suffix {s m : Bytes} (h : (components s).getLast? = some m) : m <:+ s := by
  cases last_component_cases h with
  | inl h => exact h ▸ List.suffix_refl _
  | inr h =>
      obtain ⟨pre, hpre⟩ := h
      exact ⟨pre ++ [47], by simp [hpre]⟩

/-- Behind a slash the last component of a C string is that of what follows. -/
theorem last_component_cut {s : Bytes} (hs : 0 ∉ s) (s' : Bytes) :
    (components (cstr (s ++ 47 :: s'))).getLast? = (components (cstr s')).getLast? := by
  have h : cstr (s ++ 47 :: s') = s ++ 47 :: cstr s' := by
    rw [cstr_append hs]
    simp [cstr]
  rw [h, last_component]

/-! ## The directories of the storage root -/

variable (env : Env)

theorem root_render_append (name : Bytes) :
    env.cfg.storageRoot ++ 47 :: name = render (env.root ++ [name]) := by
  rw [render_append_singleton, if_neg env.root_ne, env.storageRoot_eq]

theorem usersRoot_eq : env.cfg.usersRoot = render (usersDir env) := by
  rw [usersDir, ← root_render_append]
  rfl

theorem objectsRoot_eq : env.cfg.objectsRoot = render (objectsDir env) := by
  rw [objectsDir, ← root_render_append]
  rfl

theorem tmpRoot_eq : env.cfg.tmpRoot = render (tmpDir env) := by
  rw [tmpDir, ← root_render_append]
  rfl

theorem root_dir_plain {name : Bytes} (hname : Plain name) : ∀ n ∈ env.root ++ [name], Plain n := by
  intro n hn
  cases List.mem_append.mp hn with
  | inl h => exact env.root_plain n h
  | inr h => exact List.mem_singleton.mp h ▸ hname

theorem usersDir_plain : ∀ n ∈ usersDir env, Plain n := root_dir_plain env (by decide)

theorem objectsDir_plain : ∀ n ∈ objectsDir env, Plain n := root_dir_plain env (by decide)

theorem tmpDir_plain : ∀ n ∈ tmpDir env, Plain n := root_dir_plain env (by decide)

theorem objectPath_plain {m : Bytes} (hm : Hex32 m) : ∀ n ∈ objectPath env m, Plain n := by
  intro n hn
  simp only [objectPath, List.mem_append, List.mem_cons, List.not_mem_nil, or_false] at hn
  rcases hn with h | rfl | rfl
  · exact objectsDir_plain env n h
  · exact Hex32.take_plain hm
  · exact Hex32.plain hm

theorem objectPath_length (m : Bytes) : (objectPath env m).length = env.root.length + 3 := by
  simp [objectPath, objectsDir]

theorem objectPath_injective {m m' : Bytes} (h : objectPath env m = objectPath env m') : m = m' := by
  have h' : [m.take 2, m] = [m'.take 2, m'] := List.append_cancel_left h
  simp only [List.cons.injEq, and_true] at h'
  exact h'.2

theorem objectPath_getLast? (m : Bytes) : (objectPath env m).getLast? = some m := by
  simp [objectPath]

/-- A path in another directory of the storage root is not on the way to an object. -/
theorem not_above_object {name : Bytes} (hname : name ≠ str "objects") {p : Path}
    (hp : env.root ++ [name] <+: p) (m : Bytes) : ¬ p <+: objectPath env m := by
  intro h
  have h' : env.root ++ [name] <+: env.root ++ [str "objects", m.take 2, m] := by
    have := hp.trans h
    simpa [objectPath, objectsDir] using this
  rw [List.prefix_append_right_inj, List.cons_prefix_cons] at h'
  exact hname h'.1

/-! ## Objects -/

/-- The places of the objects of 32-hex digests outside `D`. -/
def objectPlaces (D : Set Bytes) : Set Path :=
  {p | ∃ m, Hex32 m ∧ m ∉ D ∧ p = objectPath env m}

variable {env} in
theorem objectPlaces_mono {D D' : Set Bytes} (h : D ⊆ D') :
    objectPlaces env D' ⊆ objectPlaces env D := by
  rintro p ⟨m, hm, hD, rfl⟩
  exact ⟨m, hm, fun h0 => hD (h h0), rfl⟩

/-- The path of an object as `objectPathFor` writes it. -/
def objectText (md5 : Bytes) : Bytes := joinPath (joinPath env.cfg.objectsRoot (md5.take 2)) md5

theorem objectPathFor_eq (md5 : Bytes) :
    TransferService.objectPathFor (World.backend env) md5 =
      if md5.length < 2 then .error (.cloud .badRequest (str "bad md5"))
      else .ok (objectText env md5) := rfl

theorem objectText_plain {m : Bytes} (h2 : Plain (m.take 2)) (hm : Plain m) :
    objectText env m = render (objectPath env m) := by
  have hdir : ∀ n ∈ objectsDir env ++ [m.take 2], Plain n := by
    intro n hn
    cases List.mem_append.mp hn with
    | inl h => exact objectsDir_plain env n h
    | inr h => exact List.mem_singleton.mp h ▸ h2
  rw [objectText, objectsRoot_eq, joinPath_render (objectsDir_plain env) h2.1 h2.2.2.2.1,
    joinPath_render hdir hm.1 hm.2.2.2.1]
  simp [objectPath]

theorem objectText_hex {m : Bytes} (hm : Hex32 m) : objectText env m = render (objectPath env m) :=
  objectText_plain env (Hex32.take_plain hm) (Hex32.plain hm)

/-- The text of an object's path is the md5 after a slash, or without the slashes it starts
with. -/
theorem objectText_shape {md5 : Bytes} (hlen : 2 ≤ md5.length) :
    ∃ y z, objectText env md5 = env.cfg.objectsRoot ++ 47 :: y ++ 47 :: z ∧ y.length ≤ 2 ∧
      (z = md5 ∨ md5 = 47 :: z ∨ md5 = 47 :: 47 :: z) := by
  have hOR : env.cfg.objectsRoot ≠ [] := by
    rw [objectsRoot_eq]
    simp [render]
  have hlast : env.cfg.objectsRoot.getLast? ≠ some 47 := by
    rw [objectsRoot_eq]
    exact getLast?_render (objectsDir_plain env) (by simp [objectsDir])
  obtain ⟨a, b, rest, rfl⟩ : ∃ a b rest, md5 = a :: b :: rest := by
    cases md5 with
    | nil => simp at hlen
    | cons a md5 =>
        cases md5 with
        | nil => simp at hlen
        | cons b rest => exact ⟨a, b, rest, rfl⟩
  have hslash : str "/" = [47] := by decide
  unfold objectText
  by_cases ha : a = 47
  · subst ha
    have h1 : joinPath env.cfg.objectsRoot ((47 :: b :: rest).take 2) =
        env.cfg.objectsRoot ++ [47, b] := by
      simp [joinPath, hOR, hlast]
    rw [h1]
    by_cases hb : b = 47
    · subst hb
      refine ⟨[47], rest, ?_, by simp, Or.inr (Or.inr rfl)⟩
      simp [joinPath]
    · refine ⟨[b], b :: rest, ?_, by simp, Or.inr (Or.inl rfl)⟩
      simp [joinPath, hb]
  · have h1 : joinPath env.cfg.objectsRoot ((a :: b :: rest).take 2) =
        env.cfg.objectsRoot ++ [47, a, b] := by
      simp [joinPath, hOR, hlast, ha, hslash]
    rw [h1]
    by_cases hb : b = 47
    · subst hb
      refine ⟨[a], a :: 47 :: rest, ?_, by simp, Or.inl rfl⟩
      simp [joinPath, ha]
    · refine ⟨[a, b], a :: b :: rest, ?_, by simp, Or.inl rfl⟩
      simp [joinPath, ha, hb, hslash]

/-- **A text with an md5 in it leads to an object only by its last component.** -/
theorem objectText_last {t : FileTree} (hl : t.NoLinks) {md5 : Bytes} (hlen : 2 ≤ md5.length)
    {follow : Bool} {m : Bytes} (hm : Hex32 m) (hdir : t.entry (objectPath env m) ≠ some .dir)
    (h : locate t follow (objectText env md5) = .ok (objectPath env m)) :
    (components (cstr md5)).getLast? = some m := by
  obtain ⟨y, z, htext, hy, hz⟩ := objectText_shape env hlen
  have hlast : (components (cstr (objectText env md5))).getLast? = some m := by
    cases locate_last hl h with
    | inl h => exact absurd h hdir
    | inr h =>
        obtain ⟨d, n, hq, -, -, hn⟩ := h
        have hmn := objectPath_getLast? env m
        rw [hq] at hmn
        have : n = m := by simpa using hmn
        exact this ▸ hn
  have hzero : 0 ∉ env.cfg.objectsRoot := by
    rw [objectsRoot_eq]
    exact zero_not_mem_render (objectsDir_plain env)
  by_cases hy0 : 0 ∈ y
  · -- the text is cut within the two bytes before the md5
    exfalso
    rw [htext, List.append_assoc, List.cons_append, last_component_cut hzero] at hlast
    have hcut := cstr_length_lt hy0
    rw [cstr_append_of_zero_mem hy0] at hlast
    have hle := (last_component_suffix hlast).length_le
    have := hm.1
    omega
  · have hpre : 0 ∉ env.cfg.objectsRoot ++ 47 :: y := by
      simp only [List.mem_append, List.mem_cons, not_or]
      exact ⟨hzero, by decide, hy0⟩
    rw [htext, last_component_cut hpre] at hlast
    rcases hz with rfl | rfl | rfl
    · exact hlast
    · have := last_component_cut (s := []) (by simp) z
      rw [List.nil_append] at this
      rwa [this]
    · have := last_component_cut (s := [47]) (by decide) z
      rw [List.singleton_append] at this
      rwa [this]

/-! ## Digests that lead to no object but their own -/

/-- An md5 whose text leads to a file of a name of at least 32 characters only if Redis takes
it for that name, and then there are just 32. Where arguments are taken exactly, it has 32
bytes or none. -/
structure Short (d : Dialect) (md5 : Bytes) : Prop where
  last : ∀ m, (components (cstr md5)).getLast? = some m → m.getLast? ≠ some 32 →
    32 ≤ charLength m → d.arg md5 = m ∧ charLength m = 32
  length : d.cStrings = false → md5 = [] ∨ md5.length = 32

theorem cstr_start (s : Bytes) : cstr s <+: s := List.takeWhile_prefix _

theorem charLength_le (s : Bytes) : charLength s ≤ s.length := List.countP_le_length

/-- An md5 of 32 bytes is short. -/
theorem short_of_length (d : Dialect) {md5 : Bytes} (hlen : md5 = [] ∨ md5.length = 32) :
    Short d md5 := by
  refine ⟨fun m hlast _ hchar => ?_, fun _ => hlen⟩
  have hlen : md5.length ≤ 32 := by
    rcases hlen with rfl | h
    · simp
    · exact h.le
  have hsuffix := last_component_suffix hlast
  have hpre := cstr_start md5
  have h1 := hsuffix.length_le
  have h2 := hpre.length_le
  have h3 := charLength_le m
  have hc : cstr md5 = m := (hsuffix.eq_of_length (by omega)).symm
  have hmd5 : cstr md5 = md5 := hpre.eq_of_length (by omega)
  refine ⟨?_, by omega⟩
  unfold Dialect.arg
  split
  · exact hc
  · rw [← hmd5, hc]

theorem short_nil (d : Dialect) : Short d [] := short_of_length d (Or.inl rfl)

/-- What ends in a byte that is no blank is not trimmed. -/
theorem prefix_trimEnd {x y : Bytes} (hx : x.getLast? ≠ some 32) : x <+: trimEnd (x ++ y) := by
  have hhead : x.reverse.dropWhile (· = 32) = x.reverse := by
    cases hr : x.reverse with
    | nil => rfl
    | cons c cs =>
        have hc : c ≠ 32 := by
          intro h
          apply hx
          rw [← List.head?_reverse, hr, h]
          rfl
        simp [hc]
  unfold trimEnd
  rw [List.reverse_append, List.dropWhile_append]
  split
  · rw [hhead, List.reverse_reverse]
  · rw [List.reverse_append, List.reverse_reverse]
    exact List.prefix_append _ _

theorem charLength_append (a b : Bytes) : charLength (a ++ b) = charLength a + charLength b :=
  List.countP_append

theorem charLength_cons_slash (a : Bytes) : charLength (47 :: a) = charLength a + 1 := by
  unfold charLength
  rw [List.countP_cons]
  rfl

theorem charLength_hex {m : Bytes} (hm : Hex32 m) : charLength m = 32 := by
  have h : charLength m = m.length := by
    unfold charLength
    rw [List.countP_eq_length]
    intro c hc
    simpa using (hexDigit_ne (hm.2 c hc)).2.2.2.2.2
  rw [h, hm.1]

theorem hex_getLast? {m : Bytes} (hm : Hex32 m) : m.getLast? ≠ some 32 :=
  fun h => (hexDigit_ne (hm.2 _ (List.mem_of_getLast? h))).2.2.2.2.1 rfl

/-- Among at most 32 characters, blanks at the end apart, 32 of them are all. -/
theorem last_component_whole {s kept m : Bytes} (hlast : (components (cstr s)).getLast? = some m)
    (hpre : cstr s <+: kept) (hlen : charLength kept ≤ 32) (hchar : 32 ≤ charLength m) :
    cstr s = m ∧ charLength m = 32 := by
  obtain ⟨rest, hrest⟩ := hpre
  cases last_component_cases hlast with
  | inl h =>
      rw [← hrest, charLength_append, h] at hlen
      exact ⟨h, by omega⟩
  | inr h =>
      obtain ⟨pre, hpre⟩ := h
      rw [← hrest, charLength_append, hpre, charLength_append, charLength_cons_slash] at hlen
      omega

/-- An md5 that the column takes is short, and so is what the column keeps of it. -/
theorem short_of_column {d : Dialect} (hd : d.cStrings = true) {md5 kept : Bytes}
    (h : d.md5Column md5 = some kept) : Short d md5 ∧ Short d kept := by
  obtain ⟨hkept, hlen⟩ := d.md5_short hd md5 kept h
  have harg : ∀ s, d.arg s = cstr s := fun s => by simp [Dialect.arg, hd]
  refine ⟨⟨fun m hlast hblank hchar => ?_, by simp [hd]⟩,
    ⟨fun m hlast _ hchar => ?_, by simp [hd]⟩⟩
  · rw [harg]
    have hsuffix := last_component_suffix hlast
    have hend : (cstr md5).getLast? ≠ some 32 := by
      obtain ⟨pre, hpre⟩ := hsuffix
      have hne : m ≠ [] := by
        rintro rfl
        simp [charLength] at hchar
      rwa [← hpre, List.getLast?_append_of_ne_nil _ hne]
    obtain ⟨rest, hrest⟩ := cstr_start md5
    have hpre : cstr md5 <+: kept := by
      have := prefix_trimEnd (y := rest) hend
      rwa [hrest, ← hkept] at this
    exact last_component_whole hlast hpre hlen hchar
  · rw [harg]
    exact last_component_whole hlast (cstr_start kept) hlen hchar

/-- The column `md5` keeps a short text short. -/
theorem Short.kept {d : Dialect} {md5 kept : Bytes} (h : Short d md5)
    (hkept : d.md5Column md5 = some kept) : Short d kept := by
  cases hd : d.cStrings with
  | true => exact (short_of_column hd hkept).2
  | false =>
      rw [d.md5_exact hd md5, Option.some.injEq] at hkept
      exact hkept ▸ h

/-- A text that the column `md5` takes is short where Redis takes C strings. -/
theorem short_column {d : Dialect} {md5 kept : Bytes}
    (h : d.cStrings = false → Short d md5) (hkept : d.md5Column md5 = some kept) :
    Short d md5 ∧ Short d kept := by
  cases hd : d.cStrings with
  | true => exact short_of_column hd hkept
  | false => exact ⟨h hd, (h hd).kept hkept⟩

/-- A short md5 leads to the object of no other digest. -/
theorem Short.hex {d : Dialect} {md5 m : Bytes} (h : Short d md5) (hm : Hex32 m)
    (hlast : (components (cstr md5)).getLast? = some m) : d.arg md5 = m :=
  (h.last m hlast (hex_getLast? hm) (charLength_hex hm).ge).1

/-! ## Names below a directory -/

/-- A name that a directory of the storage root is extended by: no dot, no slash and no
zero byte. -/
def NameOk (name : Bytes) : Prop := 46 ∉ name ∧ 47 ∉ name ∧ 0 ∉ name

theorem NameOk.plain {name : Bytes} (h : NameOk name) (hne : name ≠ []) : Plain name :=
  ⟨hne, fun h0 => h.1 (by simp [h0]), fun h0 => h.1 (by simp [h0]), h.2.1, h.2.2⟩

/-- A directory extended by a name, which may be empty. -/
def below (d : Path) (name : Bytes) : Path := if name = [] then d else d ++ [name]

theorem below_plain {d : Path} (hd : ∀ n ∈ d, Plain n) {name : Bytes} (hname : NameOk name) :
    ∀ n ∈ below d name, Plain n := by
  intro n hn
  unfold below at hn
  split_ifs at hn with h0
  · exact hd n hn
  · cases List.mem_append.mp hn with
    | inl h => exact hd n h
    | inr h => exact List.mem_singleton.mp h ▸ hname.plain h0

theorem prefix_below (d : Path) (name : Bytes) : d <+: below d name := by
  unfold below
  split
  · exact List.prefix_refl d
  · exact List.prefix_append d _

theorem below_length_le (d : Path) (name : Bytes) : (below d name).length ≤ d.length + 1 := by
  unfold below
  split <;> simp

theorem below_ne_nil {d : Path} (hne : d ≠ []) (name : Bytes) : below d name ≠ [] := by
  unfold below
  split <;> simp [hne]

/-- `joinPath` extends a directory by a name. -/
theorem joinPath_below {d : Path} (hd : ∀ n ∈ d, Plain n) {name : Bytes} (hname : NameOk name) :
    joinPath (render d) name = render (below d name) := by
  unfold below
  split_ifs with h0
  · simp [joinPath, h0, render]
  · exact joinPath_render hd h0 hname.2.1

/-- `joinPath` puts a slash between a text that does not end in one and what follows. -/
theorem joinPath_behind {a b : Bytes} (ha : a ≠ []) (hlast : a.getLast? ≠ some 47) (hb : b ≠ []) :
    ∃ z, joinPath a b = a ++ 47 :: z ∧ (z = b ∨ b = 47 :: z) := by
  have hslash : str "/" = [47] := by decide
  cases b with
  | nil => exact absurd rfl hb
  | cons c z =>
      by_cases hc : c = 47
      · subst hc
        exact ⟨z, by simp [joinPath, ha, hlast], Or.inr rfl⟩
      · exact ⟨c :: z, by simp [joinPath, ha, hlast, hc, hslash], Or.inl rfl⟩

/-- A path that is too short is not the place of an object. -/
theorem not_object_of_length {p : Path} (h : p.length < env.root.length + 3) (D : Set Bytes) :
    p ∉ objectPlaces env D := by
  rintro ⟨m, -, -, rfl⟩
  rw [objectPath_length] at h
  omega

/-- The directory of the part files of a user. -/
def partDir (username : Bytes) : Path := below (tmpDir env) username

/-- The root directory of a user. -/
def userRoot (username : Bytes) : Path := below (usersDir env) username

theorem partDir_plain {username : Bytes} (hname : NameOk username) :
    ∀ n ∈ partDir env username, Plain n := below_plain (tmpDir_plain env) hname

theorem userRoot_plain {username : Bytes} (hname : NameOk username) :
    ∀ n ∈ userRoot env username, Plain n := below_plain (usersDir_plain env) hname

theorem partDir_text {username : Bytes} (hname : NameOk username) :
    joinPath env.cfg.tmpRoot username = render (partDir env username) := by
  rw [tmpRoot_eq]
  exact joinPath_below (tmpDir_plain env) hname

theorem userRoot_text {username : Bytes} (hname : NameOk username) :
    joinPath env.cfg.usersRoot username = render (userRoot env username) := by
  rw [usersRoot_eq]
  exact joinPath_below (usersDir_plain env) hname

/-! ## Part files -/

/-- The text of the path of a part file. -/
def partText (username md5 dest : Bytes) : Bytes :=
  joinPath (joinPath env.cfg.tmpRoot username) (TransferService.partName md5 dest)

/-- The places of part files: a name with a dot, below `tmp`. -/
def partPlaces : Set Path := {p | tmpDir env <+: p ∧ ∃ n, p.getLast? = some n ∧ 46 ∈ n}

/-- The step from `t` to `t'` leaves the objects alone, but for those of `D`, and makes no
directory at the place of a part file. -/
abbrev Calm (D : Set Bytes) (t t' : FileTree) : Prop :=
  Keeps (objectPlaces env D) (partPlaces env) t t'

theorem partName_ends (md5 dest : Bytes) :
    (TransferService.partName md5 dest).getLast? = some 116 := by
  have h : str ".part" = [46, 112, 97, 114] ++ [116] := by decide
  simp [TransferService.partName, h]

theorem partName_ne_nil (md5 dest : Bytes) : TransferService.partName md5 dest ≠ [] := by
  have h : str "_" ≠ [] := by decide
  simp [TransferService.partName, h]

theorem slash_not_mem_baseName (s : Bytes) : 47 ∉ baseName s := by
  intro h
  unfold baseName at h
  have := List.mem_takeWhile_imp (List.mem_reverse.mp h)
  simp at this

/-- The place of the part file of an md5. -/
def partPath (username md5 dest : Bytes) : Path :=
  partDir env username ++ [TransferService.partName md5 dest]

theorem partName_plain {md5 dest : Bytes} (hm : Hex32 md5) (hdest : 0 ∉ baseName dest) :
    Plain (TransferService.partName md5 dest) := by
  obtain ⟨hslash, hzero, -⟩ := hex_clean hm.2
  have hends := partName_ends md5 dest
  refine ⟨partName_ne_nil md5 dest, ?_, ?_, ?_, ?_⟩
  · intro h
    simp [h] at hends
  · intro h
    simp [h] at hends
  · simp only [TransferService.partName, List.mem_append, not_or]
    exact ⟨⟨⟨hslash, by decide⟩, slash_not_mem_baseName dest⟩, by decide⟩
  · simp only [TransferService.partName, List.mem_append, not_or]
    exact ⟨⟨⟨hzero, by decide⟩, hdest⟩, by decide⟩

theorem partPath_plain {username md5 dest : Bytes} (hname : NameOk username) (hm : Hex32 md5)
    (hdest : 0 ∉ baseName dest) : ∀ n ∈ partPath env username md5 dest, Plain n := by
  intro n hn
  cases List.mem_append.mp hn with
  | inl h => exact partDir_plain env hname n h
  | inr h => exact List.mem_singleton.mp h ▸ partName_plain hm hdest

theorem partText_eq {username md5 dest : Bytes} (hname : NameOk username) (hm : Hex32 md5)
    (hdest : 0 ∉ baseName dest) :
    partText env username md5 dest = render (partPath env username md5 dest) := by
  have hpn := partName_plain hm hdest
  rw [partText, partDir_text env hname]
  exact joinPath_render (partDir_plain env hname) hpn.1 hpn.2.2.2.1

theorem partPath_mem (username md5 dest : Bytes) :
    partPath env username md5 dest ∈ partPlaces env := by
  refine ⟨(prefix_below _ _).trans (List.prefix_append _ _), _, List.getLast?_concat, ?_⟩
  have hdot : 46 ∈ str ".part" := by decide
  simp [TransferService.partName, hdot]

/-- **A part file is not an object.** Its name ends in `.part`, or is cut short. -/
theorem partText_clear {t : FileTree} (hl : t.NoLinks) {follow : Bool} {username md5 dest : Bytes}
    (hname : NameOk username) (hlen : md5.length = 32) (hdest : 0 ∉ baseName dest) {q : Path}
    (hq : t.entry q ≠ some .dir) (h : locate t follow (partText env username md5 dest) = .ok q) :
    q ∉ objectPlaces env ∅ := by
  have hpn := partName_ne_nil md5 dest
  have hdir := partDir_plain env hname
  have hdirne : render (partDir env username) ≠ [] := by simp [render]
  have hdirlast : (render (partDir env username)).getLast? ≠ some 47 :=
    getLast?_render hdir (below_ne_nil (by simp [tmpDir]) _)
  obtain ⟨z, htext, hz⟩ : ∃ z, partText env username md5 dest =
      render (partDir env username) ++ 47 :: z ∧
        (z = TransferService.partName md5 dest ∨ TransferService.partName md5 dest = 47 :: z) := by
    rw [partText, partDir_text env hname]
    exact joinPath_behind hdirne hdirlast hpn
  rintro ⟨m, hm, -, rfl⟩
  have hdir0 : 0 ∉ render (partDir env username) := zero_not_mem_render hdir
  cases locate_last hl h with
  | inl h => exact hq h
  | inr h =>
      obtain ⟨d, n, hqn, -, -, hn⟩ := h
      have hnm : n = m := by
        have := objectPath_getLast? env m
        rw [hqn] at this
        simpa using this
      subst hnm
      rw [htext, last_component_cut hdir0] at hn
      have hsuffix := last_component_suffix hn
      by_cases hmd5 : 0 ∈ md5
      · -- the name is cut within the md5
        have hcut : cstr (TransferService.partName md5 dest) = cstr md5 := by
          simp only [TransferService.partName, List.append_assoc]
          exact cstr_append_of_zero_mem hmd5 _
        have hlt := cstr_length_lt hmd5
        have hle : (cstr z).length ≤ (cstr (TransferService.partName md5 dest)).length := by
          cases hz with
          | inl h => rw [h]
          | inr h =>
              rw [h]
              simp [cstr]
        have := hsuffix.length_le
        have := hm.1
        rw [hcut] at hle
        omega
      · have hz0 : 0 ∉ z := by
          have hpn0 : 0 ∉ TransferService.partName md5 dest := by
            simp only [TransferService.partName, List.mem_append, not_or]
            exact ⟨⟨⟨hmd5, by decide⟩, hdest⟩, by decide⟩
          cases hz with
          | inl h => exact h ▸ hpn0
          | inr h =>
              rw [h] at hpn0
              exact fun hb => hpn0 (List.mem_cons_of_mem _ hb)
        rw [cstr_of_zero_not_mem hz0] at hsuffix
        have hends := partName_ends md5 dest
        have hzlast : z.getLast? = some 116 := by
          cases hz with
          | inl h => exact h ▸ hends
          | inr h =>
              rw [h] at hends
              cases z with
              | nil => simp at hends
              | cons a z => simpa using hends
        obtain ⟨pre, hpre⟩ := hsuffix
        rw [← hpre, List.getLast?_append_of_ne_nil _ (Hex32.plain hm).1] at hzlast
        exact (hexDigit_ne (hm.2 _ (List.mem_of_getLast? hzlast))).2.2.2.1 rfl

/-! ## Paths of users -/

/-- A path below `users`, of plain names. -/
structure UserPath (p : Path) : Prop where
  plain : ∀ n ∈ p, Plain n
  below : usersDir env <+: p

variable {env}

theorem UserPath.ne_nil {p : Path} (h : UserPath env p) : p ≠ [] := by
  rintro rfl
  have := h.below.length_le
  simp [usersDir] at this

/-- Nothing at or below a path of a user is on the way to an object. -/
theorem UserPath.not_above {p : Path} (h : UserPath env p) {D : Set Bytes} :
    ∀ r ∈ objectPlaces env D, ¬ p <+: r := by
  rintro r ⟨m, -, -, rfl⟩
  exact not_above_object env (by decide) h.below m

theorem UserPath.not_object {p : Path} (h : UserPath env p) {D : Set Bytes} :
    p ∉ objectPlaces env D := fun hp => h.not_above p hp (List.prefix_refl p)

/-- Nothing at or below a path of a user is on the way to a part file. -/
theorem UserPath.not_above_part {p : Path} (h : UserPath env p) :
    ∀ r ∈ partPlaces env, ¬ p <+: r := by
  rintro r ⟨htmp, -⟩ hp
  have husers := h.below.trans hp
  have hlen : (tmpDir env).length = (usersDir env).length := by simp [tmpDir, usersDir]
  have heq := (List.prefix_of_prefix_length_le htmp husers hlen.le).eq_of_length hlen
  rw [tmpDir, usersDir] at heq
  have := List.append_cancel_left heq
  exact absurd this (by decide)

theorem UserPath.append {p : Path} (h : UserPath env p) {n : Name} (hn : Plain n) :
    UserPath env (p ++ [n]) where
  plain := by
    intro m hm
    cases List.mem_append.mp hm with
    | inl hm => exact h.plain m hm
    | inr hm => exact List.mem_singleton.mp hm ▸ hn
  below := h.below.trans (List.prefix_append _ _)

/-- The directories on the way to a path of a user are no objects either. -/
theorem UserPath.prefix_not_object {p q : Path} (h : UserPath env p) (hq : q <+: p)
    (D : Set Bytes) : q ∉ objectPlaces env D := by
  cases Nat.lt_or_ge q.length (env.root.length + 3) with
  | inl hlt => exact not_object_of_length env hlt D
  | inr hge =>
      have hlen : (usersDir env).length ≤ q.length := by
        simp [usersDir]
        omega
      have hbelow : usersDir env <+: q := List.prefix_of_prefix_length_le h.below hq hlen
      have hq' : UserPath env q := ⟨fun n hn => h.plain n (hq.subset hn), hbelow⟩
      exact hq'.not_object

/-- No part file is on the way to a path of a user. -/
theorem UserPath.prefix_not_part {p q : Path} (h : UserPath env p) (hq : q <+: p) :
    q ∉ partPlaces env := by
  rintro ⟨htmp, -⟩
  have hlen : (tmpDir env).length = (usersDir env).length := by simp [tmpDir, usersDir]
  have heq := (List.prefix_of_prefix_length_le (htmp.trans hq) h.below hlen.le).eq_of_length hlen
  rw [tmpDir, usersDir] at heq
  have := List.append_cancel_left heq
  exact absurd this (by decide)

theorem zero_not_mem_baseName {s : Bytes} (h : 0 ∉ s) : 0 ∉ baseName s := by
  intro h0
  unfold baseName at h0
  rw [List.mem_reverse] at h0
  exact h (List.mem_reverse.mp ((List.takeWhile_prefix _).subset h0))

/-- `parentDir` removes the last name of a path. -/
theorem parentDir_render {p : Path} {n : Name} (hn : Plain n) :
    parentDir (render (p ++ [n])) = render p := by
  have hall : ∀ c ∈ n.reverse, decide (c ≠ 47) = true := by
    intro c hc
    have : c ≠ 47 := fun h => hn.2.2.2.1 (h ▸ List.mem_reverse.mp hc)
    simpa using this
  have hcut : ∀ s : Bytes, ((s ++ 47 :: n).reverse.dropWhile (· ≠ 47)).reverse = s ++ [47] := by
    intro s
    rw [List.reverse_append, List.reverse_cons, List.append_assoc,
      List.dropWhile_append_of_pos hall]
    simp
  unfold parentDir
  rw [render_append_singleton]
  by_cases hp : p = []
  · subst hp
    have := hcut []
    rw [List.nil_append] at this
    simp only [if_true]
    rw [this]
    rfl
  · rw [if_neg hp, hcut]
    have hr : ∃ c s, render p = c :: s := ⟨_, _, rfl⟩
    obtain ⟨c, s, hcs⟩ := hr
    rw [hcs]
    have hdrop : (c :: s ++ [47]).dropLast = c :: s := List.dropLast_concat
    cases s with
    | nil => rfl
    | cons d s => exact hdrop

end CloudStore.Interface

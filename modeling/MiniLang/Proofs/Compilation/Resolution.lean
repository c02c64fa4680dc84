import MiniLang.Proofs.Compilation.Ending
import MiniLang.Proofs.Files.Writing
/-!
# What a path resolves to

The program found under a path is the path itself, where that names a file, or what stands under the usual name in the
directory that it names (`FileTree.locate_inside`).  Of the latter no more is asked than that it is there, so it may be a
directory itself (`entry_is_directory`).  That is the only thing that can be wrong with it: where it is none, the path
that was found is found again and can be read, but for bytes that are no text (`resolves_again_iff`).
-/
namespace MiniLang

/-! ## Paths of names inside directories -/

namespace Path

variable {p name : String} {s w : List Char}

theorem pieces_ne_nil (s : List Char) : pieces s ≠ [] := by
  cases s with
  | nil => simp [pieces]
  | cons c s =>
    unfold pieces
    split
    · simp
    · split <;> simp

theorem pieces_of_not_mem (h : '/' ∉ w) : pieces w = [w] := by
  induction w with
  | nil => rfl
  | cons c w ih =>
    rw [List.mem_cons, not_or] at h
    rw [pieces, if_neg (Ne.symm h.1), ih h.2]

/-- A slash and a name behind a path add one piece. -/
theorem pieces_append_slash (h : '/' ∉ w) : ∀ s : List Char, pieces (s ++ '/' :: w) = pieces s ++ [w]
  | [] => by simp [pieces, pieces_of_not_mem h]
  | c :: s => by
    rw [List.cons_append, pieces, pieces, pieces_append_slash h s]
    split
    · rfl
    · obtain ⟨q, qs, hq⟩ := List.exists_cons_of_ne_nil (pieces_ne_nil s)
      rw [hq]
      rfl

/-- Behind the components of a path, one of which a slash at its end leaves empty, stands the name. -/
theorem components_inside (hname : '/' ∉ name.toList) (hp : p ≠ "") :
    ∃ cs, (components p = cs ∨ components p = cs ++ [""]) ∧ components (inside p name) = cs ++ [name] := by
  have hempty : ¬ p.isEmpty = true := by simpa using hp
  unfold inside
  rw [if_neg hempty]
  split
  · next hlast =>
    obtain ⟨s, hs⟩ := List.getLast?_eq_some_iff.1 hlast
    refine ⟨(pieces s).map String.ofList, .inr ?_, ?_⟩
    · rw [components, hs, pieces_append_slash List.not_mem_nil, List.map_append]
      rfl
    · rw [components, String.toList_append, hs, List.append_assoc, List.singleton_append, pieces_append_slash hname,
        List.map_append, List.map_singleton, String.ofList_toList]
  · refine ⟨components p, .inl rfl, ?_⟩
    have hslash : (p ++ "/" ++ name).toList = p.toList ++ '/' :: name.toList := by simp
    rw [components, hslash, pieces_append_slash hname, List.map_append, List.map_singleton, String.ofList_toList]
    rfl

/-- The name is put behind the path, perhaps behind a slash. -/
theorem exists_inside (p name : String) : ∃ slash, inside p name = p ++ (slash ++ name) := by
  unfold inside
  split
  · next hempty => exact ⟨"", by rw [String.isEmpty_iff.1 hempty, String.empty_append, String.empty_append]⟩
  · split
    · exact ⟨"", by rw [String.empty_append]⟩
    · exact ⟨"/", String.append_assoc⟩

theorem isAbsolute_append {rest : String} (hp : p ≠ "") : isAbsolute (p ++ rest) = isAbsolute p := by
  unfold isAbsolute
  rw [String.toList_append, List.head?_append_of_ne_nil _ (by simpa using hp)]

theorem isAbsolute_inside (h : isAbsolute p = true) : isAbsolute (inside p name) = true := by
  have hp : p ≠ "" := by
    rintro rfl
    cases h
  obtain ⟨slash, hinside⟩ := exists_inside p name
  rw [hinside, isAbsolute_append hp, h]

theorem inside_ne (hname : name ≠ "") : inside p name ≠ p := by
  obtain ⟨slash, hinside⟩ := exists_inside p name
  rw [hinside]
  intro h
  have happend : p.toList ++ (slash ++ name).toList = p.toList := by rw [← String.toList_append, h]
  have hnil := List.append_right_eq_self.1 happend
  rw [String.toList_append, List.append_eq_nil_iff] at hnil
  exact hname (String.toList_eq_nil_iff.1 hnil.2)

end Path

namespace FileTree

variable {t : FileTree} {input q : String} {l : Location}

theorem route_eq_ok {p : String} {cs : List String} : route p = .ok cs ↔ '\x00' ∉ p.toList ∧ p ≠ "" ∧
    p.utf8ByteSize ≤ Path.maxBytes ∧ cs = Path.components p := by
  unfold route
  by_cases hnull : '\x00' ∈ p.toList
  · simp [hnull]
  · by_cases hempty : p = ""
    · simp [hempty]
    · by_cases hsize : Path.maxBytes < p.utf8ByteSize
      · simp [hnull, hempty, hsize, Nat.not_le.2 hsize]
      · simp [hnull, hempty, hsize, Nat.not_lt.1 hsize, eq_comm (a := cs)]

/-- What a path starts with can be followed if the path can. -/
theorem route_of_append {p rest : String} {cs : List String} (hp : p ≠ "") (h : route (p ++ rest) = .ok cs) :
    route p = .ok (Path.components p) := by
  obtain ⟨hnull, -, hsize, -⟩ := route_eq_ok.1 h
  rw [String.toList_append] at hnull
  rw [String.utf8ByteSize_append] at hsize
  exact route_eq_ok.2 ⟨fun h => hnull (List.mem_append_left _ h), hp, by omega, rfl⟩

/-- A path starts where what stands in front of it does. -/
theorem origin_append {p rest : String} (hp : p ≠ "") : t.origin (p ++ rest) = t.origin p := by
  unfold origin
  rw [Path.isAbsolute_append hp]

theorem isName_entryName : IsName entryName := ⟨by decide, by decide, by decide, by decide⟩

theorem enter_entryName {dir : Location} (h : t.enter dir entryName = .ok l) :
    l = entryName :: dir ∧ (t.find? l).isSome ∧ t.find? dir = some .directory := by
  obtain ⟨hdir, ⟨hstay, -⟩ | ⟨hup, -⟩ | ⟨-, hthere, rfl⟩⟩ := enter_eq_ok.1 h
  · exact (hstay.elim isName_entryName.ne_empty isName_entryName.ne_dot).elim
  · exact absurd hup isName_entryName.ne_dots
  · exact ⟨rfl, hthere, hdir⟩

/-- **Where the program inside a path stands**: under its name in the directory that the path names. -/
theorem locate_inside (h : t.locate (Path.inside input entryName) = .ok l) :
    ∃ dir, l = entryName :: dir ∧ (t.find? l).isSome ∧ t.find? dir = some .directory ∧
      (input ≠ "" → t.locate input = .ok dir) := by
  obtain ⟨cs, hroute, hcs⟩ := locate_eq_ok.1 h
  obtain rfl := (route_eq_ok.1 hroute).2.2.2
  by_cases hempty : input = ""
  · subst hempty
    have hcomponents : Path.components (Path.inside "" entryName) = [entryName] := rfl
    rw [hcomponents, follow_singleton] at hcs
    obtain ⟨rfl, hthere, hdir⟩ := enter_entryName hcs
    exact ⟨_, rfl, hthere, hdir, fun hne => absurd rfl hne⟩
  · have hname : '/' ∉ entryName.toList := by decide
    obtain ⟨ds, hds, hinside⟩ := Path.components_inside hname hempty
    rw [hinside] at hcs
    obtain ⟨dir, hfollow, henter⟩ := follow_append.1 hcs
    obtain ⟨rfl, hthere, hdir⟩ := enter_entryName (follow_singleton.1 henter)
    obtain ⟨slash, hslash⟩ := Path.exists_inside input entryName
    rw [hslash, origin_append hempty] at hfollow
    refine ⟨dir, rfl, hthere, hdir, fun _ => locate_eq_ok.2 ⟨_, route_of_append hempty (hslash ▸ hroute), ?_⟩⟩
    rcases hds with hds | hds
    · rwa [hds]
    · rw [hds]
      exact follow_append.2 ⟨dir, hfollow, follow_singleton.2 (enter_empty.2 ⟨hdir, rfl⟩)⟩

/-! ## What is found -/

theorem isFile_iff {p : String} :
    t.isFile p = true ↔ ∃ l content, t.locate p = .ok l ∧ t.find? l = some (.file content) := by
  unfold isFile
  cases hl : t.locate p with
  | error e => simp
  | ok l =>
    cases hf : t.find? l with
    | none => simp [hf]
    | some e => cases e <;> simp [hf]

theorem isThere_iff {p : String} : t.isThere p = true ↔ ∃ l, t.locate p = .ok l := by
  unfold isThere
  cases t.locate p <;> simp

theorem resolve_eq_ok : t.resolve input = .ok q ↔ t.isFile input = true ∧ q = input ∨
    ¬ t.isFile input = true ∧ t.isThere (Path.inside input entryName) = true ∧ q = Path.inside input entryName := by
  unfold resolve
  by_cases hfile : t.isFile input = true
  · simp [hfile, eq_comm (a := q)]
  · by_cases hthere : t.isThere (Path.inside input entryName) = true <;> simp [hfile, hthere, eq_comm (a := q)]

/-- What a path resolves to stands in the tree. -/
theorem exists_entry_of_resolve (h : t.resolve input = .ok q) : ∃ l e, t.locate q = .ok l ∧ t.find? l = some e ∧
    (q = input ∧ (∃ content, e = .file content) ∨
      q = Path.inside input entryName ∧ ¬ t.isFile input = true ∧
        ∃ dir, l = entryName :: dir ∧ t.find? dir = some .directory ∧ (input ≠ "" → t.locate input = .ok dir)) := by
  rcases resolve_eq_ok.1 h with ⟨hfile, rfl⟩ | ⟨hfile, hthere, rfl⟩
  · obtain ⟨l, content, hl, hcontent⟩ := isFile_iff.1 hfile
    exact ⟨l, _, hl, hcontent, .inl ⟨rfl, content, rfl⟩⟩
  · obtain ⟨l, hl⟩ := isThere_iff.1 hthere
    obtain ⟨dir, hdir, hsome, hrest⟩ := locate_inside hl
    obtain ⟨e, he⟩ := Option.isSome_iff_exists.1 hsome
    exact ⟨l, e, hl, he, .inr ⟨rfl, hfile, dir, hdir, hrest⟩⟩

/-- A path resolves to itself exactly if it names a file. -/
theorem resolve_self : t.resolve q = .ok q ↔ t.isFile q = true := by
  have hname : entryName ≠ "" := by decide
  have hne : q ≠ Path.inside q entryName := (Path.inside_ne hname).symm
  rw [resolve_eq_ok]
  simp [hne]

/-- What can go wrong with reading what stands under a path. -/
theorem read_eq_error {e : Entry} {p : String} {cause : FileError} (hl : t.locate p = .ok l) (he : t.find? l = some e) :
    t.read p = .error cause ↔ e = .directory ∧ cause = .isDirectory ∨
      ∃ content, e = .file content ∧ String.fromUTF8? content = none ∧ cause = .notText := by
  cases e with
  | directory => simp [read, hl, he, bind, Except.bind, eq_comm (a := cause)]
  | file content =>
    cases htext : String.fromUTF8? content with
    | some text => simp [read, hl, he, htext, bind, Except.bind]
    | none => simp [read, hl, he, htext, bind, Except.bind, eq_comm (a := cause)]

theorem resolve_eq_error {failure : Failure} (h : t.resolve input = .error failure) : failure = .noEntry input := by
  unfold resolve at h
  split at h
  · cases h
  · split at h <;> cases h
    rfl

/-- A compilation fails on reading where the program that is found cannot be read, and nowhere else. -/
theorem result_eq_unreadable {output : Option String} {path : String} {cause : FileError} :
    (t.ending input output).result = .error (.unreadable path cause) ↔
      t.resolve input = .ok path ∧ t.read path = .error cause := by
  constructor
  · intro h
    unfold ending at h
    split at h
    · next failure hfailure =>
      obtain rfl := resolve_eq_error hfailure
      cases h
    · next p hpath =>
      split at h
      · next e hread =>
        cases h
        exact ⟨hpath, hread⟩
      · next text hread =>
        unfold endingOf at h
        split at h
        · cases h
        · next a ha =>
          cases output with
          | none => cases h
          | some p' =>
            cases hwrite : t.write p' a.listing <;> simp [Ending.result, hwrite] at h
  · rintro ⟨hpath, hread⟩
    simp [ending, hpath, hread, Ending.result]

end FileTree

/-- **A path resolves to what can be resolved again and read, unless it is a directory.**  What is found stands in the
tree: it is the file that the path names, or what stands under the usual name in the directory that it names.  The path
that was found resolves to itself exactly if that is no directory, and a compilation fails on reading it for that reason
only, and else only for bytes that are no text. -/
theorem resolves_again_iff (o : Options) (s : Session) (q : String)
    (h : ((resolve o.input : StateM Session _).run s).1 = .ok q) :
    ∃ l e, s.files.locate q = .ok l ∧ s.files.find? l = some e ∧
      (q = o.input ∧ (∃ content, e = .file content) ∨
        q = Path.inside o.input entryName ∧ ¬ s.files.isFile o.input = true ∧
          ∃ dir, l = entryName :: dir ∧ s.files.find? dir = some .directory ∧
            (o.input ≠ "" → s.files.locate o.input = .ok dir)) ∧
      (((resolve q : StateM Session _).run s).1 = .ok q ↔ e ≠ .directory) ∧
      ∀ path cause, ((compile o : StateM Session _).run s).1 = .error (.unreadable path cause) ↔
        path = q ∧ (e = .directory ∧ cause = .isDirectory ∨
          ∃ content, e = .file content ∧ String.fromUTF8? content = none ∧ cause = .notText) := by
  simp only [run_resolve] at h ⊢
  obtain ⟨l, e, hl, he, hplace⟩ := FileTree.exists_entry_of_resolve h
  refine ⟨l, e, hl, he, hplace, ?_, fun path cause => ?_⟩
  · rw [FileTree.resolve_self, FileTree.isFile_iff]
    cases e <;> simp [hl, he]
  · rw [run_compile]
    simp only [FileTree.result_eq_unreadable, h, Except.ok.injEq, eq_comm (a := q)]
    refine and_congr_right ?_
    rintro rfl
    exact FileTree.read_eq_error hl he

/-- Where a directory has the usual name of a program, nothing that a path promises of what it resolves to holds: it is
no file, it is not found again, and it fails to be read although no byte of it is looked at. -/
theorem entry_is_directory :
    (¬ ∀ (s : Session) (input q : String), ((resolve input : StateM Session _).run s).1 = .ok q →
      s.files.isFile q = true) ∧
    (¬ ∀ (s : Session) (input q : String), ((resolve input : StateM Session _).run s).1 = .ok q →
      ((resolve q : StateM Session _).run s).1 = .ok q) ∧
    ¬ ∀ (s : Session) (o : Options) (path : String) (cause : FileError),
      ((compile o : StateM Session _).run s).1 = .error (.unreadable path cause) → cause = .notText := by
  have hfound : ((resolve "dd" : StateM Session _).run (.start (FileTree.empty.withDirectory ["main.minilang", "dd"]))).1 =
      .ok "dd/main.minilang" := by rfl
  refine ⟨fun h => ?_, fun h => ?_, fun h => ?_⟩
  · cases h _ _ _ hfound
  · cases h _ _ _ hfound
  · cases h (.start (FileTree.empty.withDirectory ["main.minilang", "dd"])) ⟨"dd", none, false, false, true, false⟩ _ _
      (by rfl)

/-- The program in a directory holds a byte that is no text: it is found, and found again, but cannot be read. -/
theorem resolves_again_not_text :
    let s : Session := .start (FileTree.empty.withFile ["main.minilang", "d"] ⟨#[0xff]⟩)
    ((resolve "d/" : StateM Session _).run s).1 = .ok "d/main.minilang" ∧
      ((resolve "d/main.minilang" : StateM Session _).run s).1 = .ok "d/main.minilang" ∧
      ((compile ⟨"d/", none, false, false, true, false⟩ : StateM Session _).run s).1 =
        .error (.unreadable "d/main.minilang" .notText) := by
  intro s
  have hfound : ((resolve "d/" : StateM Session _).run s).1 = .ok "d/main.minilang" := by
    unfold s
    rfl
  obtain ⟨l, e, hl, he, -, hagain, hread⟩ :=
    resolves_again_iff ⟨"d/", none, false, false, true, false⟩ s "d/main.minilang" hfound
  have hl' : s.files.locate "d/main.minilang" = .ok ["main.minilang", "d"] := by rfl
  cases hl'.symm.trans hl
  have he' : s.files.find? ["main.minilang", "d"] = some (.file ⟨#[0xff]⟩) := by rfl
  cases he'.symm.trans he
  exact ⟨hfound, hagain.2 (by simp), (hread _ _).2 ⟨rfl, .inr ⟨_, rfl, by rfl, rfl⟩⟩⟩

end MiniLang

import Mathlib.Data.List.DropRight
import Rssh.Lib.Syscall
import Rssh.Lib.Text

/-!
# Paths of the transfer fixtures

The lexical side of the SCP and SFTP fixtures: how a request's text becomes a path, what
`std::path` makes of such a path, and which names and relative paths are accepted. Names
of the file system are an arbitrary type with the conversions of `OsString`.
-/

namespace Rssh

open Posix

/-- The conversions between names and text (`OsString::from`, `OsStr::to_str`), and the
order by which directory entries are sorted. -/
structure OsNames (ν : Type) where
  ofText : List Char → ν
  toText : ν → Option (List Char)
  le : ν → ν → Bool
  toText_ofText : ∀ text, toText (ofText text) = some text
  ofText_toText : ∀ n text, toText n = some text → ofText text = n
  le_total : ∀ a b, le a b = true ∨ le b a = true
  le_trans : ∀ a b c, le a b = true → le b c = true → le a c = true
  le_antisymm : ∀ a b, le a b = true → le b a = true → a = b

/-- The order of texts, which is that of their bytes. -/
def textLe : List Char → List Char → Bool
  | [], _ => true
  | _ :: _, [] => false
  | a :: as, b :: bs => decide (a.toNat < b.toNat) || (a == b && textLe as bs)

/-- Texts are compared character by character. -/
theorem textLe_cons {a b : Char} {as bs : List Char} :
    textLe (a :: as) (b :: bs) = true ↔ a.toNat < b.toNat ∨ a = b ∧ textLe as bs = true := by
  simp [textLe]

theorem textLe_total (as bs : List Char) : textLe as bs = true ∨ textLe bs as = true := by
  induction as generalizing bs with
  | nil => exact .inl rfl
  | cons a as ih =>
      cases bs with
      | nil => exact .inr rfl
      | cons b bs =>
          simp only [textLe_cons]
          rcases lt_trichotomy a.toNat b.toNat with hlt | heq | hgt
          · exact .inl (.inl hlt)
          · have hab := Char.toNat_inj.mp heq
            exact (ih bs).imp (fun h => .inr ⟨hab, h⟩) fun h => .inr ⟨hab.symm, h⟩
          · exact .inr (.inl hgt)

theorem textLe_trans (as bs cs : List Char) (h : textLe as bs = true) (h' : textLe bs cs = true) :
    textLe as cs = true := by
  induction as generalizing bs cs with
  | nil => rfl
  | cons a as ih =>
      cases bs with
      | nil => cases h
      | cons b bs =>
          cases cs with
          | nil => cases h'
          | cons c cs =>
              rw [textLe_cons] at h h' ⊢
              rcases h with hab | ⟨rfl, has⟩
              · rcases h' with hbc | ⟨rfl, -⟩
                · exact .inl (hab.trans hbc)
                · exact .inl hab
              · exact h'.imp id fun hbc => ⟨hbc.1, ih bs cs has hbc.2⟩

/-- The order decides between any two different texts. -/
theorem textLe_antisymm (as bs : List Char) (h : textLe as bs = true) (h' : textLe bs as = true) :
    as = bs := by
  induction as generalizing bs with
  | nil =>
      cases bs with
      | nil => rfl
      | cons => cases h'
  | cons a as ih =>
      cases bs with
      | nil => cases h
      | cons b bs =>
          rw [textLe_cons] at h h'
          rcases h with hab | ⟨rfl, has⟩
          · -- one character is less: the other way it cannot be as well
            rcases h' with hba | ⟨rfl, -⟩
            · omega
            · omega
          · rcases h' with hlt | ⟨-, hbs⟩
            · omega
            · rw [ih bs has hbs]

/-- All names are texts. -/
def textNames : OsNames (List Char) where
  ofText := id
  toText := some
  le := textLe
  toText_ofText _ := rfl
  ofText_toText _ _ h := (Option.some.inj h).symm
  le_total := textLe_total
  le_trans := textLe_trans
  le_antisymm := textLe_antisymm

/-! ## `std::path` -/

/-- A path as `Path` sees its text: whether it is empty or absolute, and its segments. -/
structure RelPath (ν : Type) where
  empty : Bool
  absolute : Bool
  segs : List (Seg ν)
deriving DecidableEq, Repr

/-- The segment of one piece between slashes. -/
def pieceSeg {ν : Type} (N : OsNames ν) (piece : List Char) : Seg ν :=
  if piece = ['.'] then .cur
  else if piece = ['.', '.'] then .up
  else .name (N.ofText piece)

/-- The segments of the pieces of a text: repeated slashes are one, and a slash at the end
asks for a directory, as a final `.` does. -/
def pieceSegs {ν : Type} (N : OsNames ν) : List (List Char) → List (Seg ν)
  | [] => []
  | [last] => if last = [] then [.cur] else [pieceSeg N last]
  | piece :: rest =>
      if piece = [] then pieceSegs N rest else pieceSeg N piece :: pieceSegs N rest

/-- `PathBuf::from` a text. -/
def RelPath.ofText {ν : Type} (N : OsNames ν) (text : List Char) : RelPath ν where
  empty := text.isEmpty
  absolute := text.head? == some '/'
  segs := pieceSegs N (text.splitOn '/')

example : (RelPath.ofText textNames "a//b/".toList).segs =
    [.name ['a'], .name ['b'], .cur] := by decide

/-- A relative path of names, as `strip_prefix` and `join` build it. -/
def RelPath.ofNames {ν : Type} (names : List ν) : RelPath ν where
  empty := names.isEmpty
  absolute := false
  segs := Loc.path names

/-- `validate_relative`: on Unix there are no prefixes. -/
def validateRelative {ν : Type} [DecidableEq ν] (path : RelPath ν) : Bool :=
  !path.empty && !path.absolute && decide (Seg.up ∉ path.segs)

section Lexical

variable {ν : Type}

def isCurSeg : Seg ν → Bool
  | .cur => true
  | .up => false
  | .name _ => false

/-- `Path::parent` of an absolute path: `.` components do not count. -/
def parent? (path : List (Seg ν)) : Option (List (Seg ν)) :=
  match path.rdropWhile isCurSeg with
  | [] => none
  | components => some (components.dropLast.rdropWhile isCurSeg)

/-- `Path::file_name`. -/
def fileName? (path : List (Seg ν)) : Option ν :=
  match (path.rdropWhile isCurSeg).getLast? with
  | some (.name n) => some n
  | some .cur => none
  | some .up => none
  | none => none

/-- A location has no `.` to strip. -/
theorem rdropWhile_path (loc : Loc ν) : loc.path.rdropWhile isCurSeg = loc.path := by
  rcases List.eq_nil_or_concat loc with rfl | ⟨dir, n, rfl⟩
  · rfl
  · rw [List.concat_eq_append, Loc.path, List.map_append]
    exact List.rdropWhile_concat_neg _ _ _ (by simp [isCurSeg])

/-- A name in a directory of the root, as a path relative to the root that is joined to it. -/
theorem root_append_ofNames {root dir : Loc ν} (h : root <+: dir) (n : ν) :
    root.path ++ (RelPath.ofNames (dir.drop root.length ++ [n])).segs = Loc.path (dir ++ [n]) := by
  rcases h with ⟨below, rfl⟩
  simp [RelPath.ofNames, Loc.path]

/-- `parent` of a location is the directory it is in. -/
theorem parent?_path (dir : Loc ν) (n : ν) : parent? (dir ++ [n]).path = some dir.path := by
  have hpath : (dir ++ [n]).path = dir.path ++ [.name n] := by simp [Loc.path]
  have hne : dir.path ++ [Seg.name n] ≠ [] := by simp
  simp only [parent?, rdropWhile_path]
  rw [hpath]
  split
  · rename_i h
    exact absurd h hne
  · rw [List.dropLast_concat, rdropWhile_path]

/-- `file_name` of a location is its last name. -/
theorem fileName?_path (dir : Loc ν) (n : ν) : fileName? (dir ++ [n]).path = some n := by
  have hpath : (dir ++ [n]).path = dir.path ++ [.name n] := by simp [Loc.path]
  rw [fileName?, rdropWhile_path, hpath, List.getLast?_concat]

/-- A path is its parent and its name, with `.` components between and after them. -/
theorem eq_parent_append {path parent : List (Seg ν)} {n : ν} (hparent : parent? path = some parent)
    (hname : fileName? path = some n) :
    ∃ between after, path = parent ++ (between ++ .name n :: after) ∧
      (∀ seg ∈ between, seg = .cur) ∧ ∀ seg ∈ after, seg = .cur := by
  -- `parent` strips every `.` at the end, before the name and behind it
  have hcur : ∀ seg : Seg ν, isCurSeg seg = true → seg = .cur := by
    intro seg hseg
    cases seg with
    | cur => rfl
    | up | name => cases hseg
  have hlast : (path.rdropWhile isCurSeg).getLast? = some (.name n) := by
    simp only [fileName?] at hname
    split at hname <;> simp_all
  have hcomponents : (path.rdropWhile isCurSeg).dropLast ++ [.name n] =
      path.rdropWhile isCurSeg := List.dropLast_append_getLast? _ hlast
  have hdropped : (path.rdropWhile isCurSeg).dropLast.rdropWhile isCurSeg = parent := by
    simp only [parent?] at hparent
    split at hparent
    · cases hparent
    · exact Option.some.inj hparent
  refine ⟨(path.rdropWhile isCurSeg).dropLast.rtakeWhile isCurSeg, path.rtakeWhile isCurSeg, ?_,
    fun seg hseg => hcur seg (List.mem_rtakeWhile_imp hseg),
    fun seg hseg => hcur seg (List.mem_rtakeWhile_imp hseg)⟩
  -- the path is put together again from what was stripped
  calc path = path.rdropWhile isCurSeg ++ path.rtakeWhile isCurSeg :=
        (List.rdropWhile_append_rtakeWhile ..).symm
    _ = (path.rdropWhile isCurSeg).dropLast ++ (.name n :: path.rtakeWhile isCurSeg) := by
        rw [← hcomponents]
        simp
    _ = _ := by
        rw [← hdropped, ← List.append_assoc, List.rdropWhile_append_rtakeWhile]

end Lexical

/-! ## Names -/

/-- `char::is_control`: the Unicode category `Cc`. -/
def isControl (c : Char) : Bool := c.toNat < 0x20 || (0x7F ≤ c.toNat && c.toNat < 0xA0)

/-- `validate_name`. -/
def validateName (name : List Char) : Bool :=
  name ≠ [] && name ≠ ['.'] && name ≠ ['.', '.'] &&
    !name.any (fun c => c == '/' || c == '\\') && !name.any isControl

def isAsciiAlphabetic (b : UInt8) : Bool :=
  (0x41 ≤ b && b ≤ 0x5A) || (0x61 ≤ b && b ≤ 0x7A)

/-- `portable_control_name`: a name, or the last part of a Windows path. -/
def portableControlName (name : List Char) : Option (List Char) :=
  if validateName name then some name
  else
    match Text.encodeUtf8 name with
    | drive :: colon :: slash :: _ :: _ =>
        if isAsciiAlphabetic drive && colon == 0x3A && (slash == 0x5C || slash == 0x2F) then
          let leaf := name.rtakeWhile fun c => c ≠ '\\' && c ≠ '/'
          if validateName leaf then some leaf else none
        else none
    | _ => none

/-- Of any name that a peer sends, what is left is a valid one. -/
theorem portableControlName_valid {name leaf : List Char}
    (h : portableControlName name = some leaf) : validateName leaf = true := by
  simp only [portableControlName] at h
  split at h
  · rename_i hvalid
    exact Option.some.inj h ▸ hvalid
  · split at h
    · split_ifs at h with _ hvalid
      exact Option.some.inj h ▸ hvalid
    · cases h

theorem portableControlName_of_valid {name : List Char} (h : validateName name = true) :
    portableControlName name = some name := by
  simp [portableControlName, h]

end Rssh

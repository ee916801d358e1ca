import Mathlib.Algebra.Ring.Nat
import Mathlib.Data.List.Dedup
import Mathlib.Data.List.Induction

/-!
# A POSIX file tree

Files, directories and symbolic links under one top directory, and the path resolution of
a POSIX kernel. A location is the list of names from the top; a path is a list of segments,
so that `.`, `..` and a trailing slash (which acts as a final `.`) are visible to the
resolution and nothing else is.

* `resolve` walks a path, follows links (up to `maxLinks`) and says where it ends: at an
  object, at a name that is missing in an existing directory, or nowhere.
* `Solid` locations are those whose whole way down consists of directories.
  `resolve_found_solid` and `resolve_missing_solid` say that a resolution ends below a
  solid directory, and `resolve_names` that the plain names of such an end resolve to it.
* The remaining definitions are the system calls as functions of the tree.
-/

namespace Posix

/-! ## Paths and trees -/

/-- A segment of a path. -/
inductive Seg (ν : Type) where
  | name (n : ν)
  | cur
  | up
deriving DecidableEq, Repr

/-- The names from the top directory down. -/
abbrev Loc (ν : Type) := List ν

/-- The path that spells a location. -/
def Loc.path {ν : Type} (loc : Loc ν) : List (Seg ν) := loc.map .name

/-- The text of a symbolic link. -/
structure LinkText (ν : Type) where
  absolute : Bool
  segs : List (Seg ν)
deriving DecidableEq, Repr

/-- What a name stands for. The content of a file is in the inode table. -/
inductive Obj (ν : Type) where
  | file (ino : Nat)
  | dir (mode : Nat)
  | link (text : LinkText ν)
  | special
deriving DecidableEq, Repr

/-- `S_ISDIR`. -/
def Obj.isDir {ν : Type} : Obj ν → Bool
  | .dir _ => true
  | .file _ | .link _ | .special => false

/-- `S_ISREG`. -/
def Obj.isFile {ν : Type} : Obj ν → Bool
  | .file _ => true
  | .dir _ | .link _ | .special => false

/-- `S_ISLNK`. -/
def Obj.isLink {ν : Type} : Obj ν → Bool
  | .link _ => true
  | .file _ | .dir _ | .special => false

structure Inode where
  data : List UInt8 := []
  mode : Nat
deriving DecidableEq, Repr

/-- A tree: its entries (the first one for a location counts), the inodes, and the number
from which on inodes are free. -/
structure Fs (ν : Type) where
  entries : List (Loc ν × Obj ν)
  inode : Nat → Inode
  nextIno : Nat

inductive Errno where
  | notFound
  | notDirectory
  | tooManyLinks
  | exists_
  | isDirectory
  | notEmpty
  | invalid
  | denied
  | other
deriving DecidableEq, Repr

/-- How many links a resolution follows. -/
def maxLinks : Nat := 40

namespace Fs

variable {ν : Type} [DecidableEq ν]

/-- The object at a location; the top is always a directory. -/
def get (fs : Fs ν) (loc : Loc ν) : Option (Obj ν) :=
  if loc = [] then some (.dir 0o755)
  else (fs.entries.find? fun entry => entry.1 = loc).map Prod.snd

/-- The names in a directory, in the order of the tree. -/
def children (fs : Fs ν) (dir : Loc ν) : List ν :=
  (fs.entries.filterMap fun entry =>
    entry.1.getLast?.filter fun n => decide (entry.1 = dir ++ [n])).dedup

def set (fs : Fs ν) (loc : Loc ν) (obj : Obj ν) : Fs ν :=
  { fs with entries := (loc, obj) :: fs.entries }

def erase (fs : Fs ν) (loc : Loc ν) : Fs ν :=
  { fs with entries := fs.entries.filter fun entry => entry.1 ≠ loc }

/-! ## Resolution -/

end Fs

/-- How far a walk gets without following a link. -/
inductive Advance (ν : Type) where
  | found (loc : Loc ν)
  | missing (dir : Loc ν) (n : ν)
  | failed (errno : Errno)
  | link (dir : Loc ν) (text : LinkText ν) (rest : List (Seg ν))
deriving DecidableEq, Repr

/-- Where a path ends: at an object, at a name missing in a directory, or nowhere. -/
inductive Resolved (ν : Type) where
  | found (loc : Loc ν)
  | missing (dir : Loc ν) (n : ν)
  | failed (errno : Errno)
deriving DecidableEq, Repr

namespace Fs

variable {ν : Type} [DecidableEq ν]

/-- Walk from a directory. A link in the last place is followed only if `follow` says so;
everywhere else, also before a trailing slash, it is. -/
def advance (fs : Fs ν) (follow : Bool) : Loc ν → List (Seg ν) → Advance ν
  | dir, [] => .found dir
  | dir, .cur :: rest => advance fs follow dir rest
  | dir, .up :: rest => advance fs follow dir.dropLast rest
  | dir, .name n :: rest =>
      match fs.get (dir ++ [n]) with
      | none => if rest = [] then .missing dir n else .failed .notFound
      | some (.dir _) => advance fs follow (dir ++ [n]) rest
      | some (.link text) =>
          if rest = [] ∧ follow = false then .found (dir ++ [n]) else .link dir text rest
      | some (.file _) => if rest = [] then .found (dir ++ [n]) else .failed .notDirectory
      | some .special => if rest = [] then .found (dir ++ [n]) else .failed .notDirectory

/-- Resolve a path from a directory, following at most `links` links. -/
def resolveFrom (fs : Fs ν) (follow : Bool) (links : Nat) (dir : Loc ν) (segs : List (Seg ν)) :
    Resolved ν :=
  match fs.advance follow dir segs with
  | .found loc => .found loc
  | .missing dir n => .missing dir n
  | .failed errno => .failed errno
  | .link dir text rest =>
      match links with
      | 0 => .failed .tooManyLinks
      | links + 1 =>
          resolveFrom fs follow links (if text.absolute then [] else dir) (text.segs ++ rest)

/-- Resolve an absolute path. -/
def resolve (fs : Fs ν) (follow : Bool) (path : List (Seg ν)) : Resolved ν :=
  fs.resolveFrom follow maxLinks [] path

/-! ## Solid locations -/

/-- Every place on the way down, the last one included, is a directory. -/
def Solid (fs : Fs ν) (loc : Loc ν) : Prop :=
  ∀ p, p <+: loc → ∃ mode, fs.get p = some (.dir mode)

variable {fs : Fs ν}

@[simp] theorem get_nil : fs.get [] = some (.dir 0o755) := by
  simp [get]

theorem solid_nil : fs.Solid [] := by
  intro p hp
  rw [List.prefix_nil.mp hp]
  exact ⟨_, get_nil⟩

/-- A directory is solid if its parent is. -/
theorem solid_concat {dir : Loc ν} {n : ν} :
    fs.Solid (dir ++ [n]) ↔ fs.Solid dir ∧ ∃ mode, fs.get (dir ++ [n]) = some (.dir mode) := by
  constructor
  · intro h
    exact ⟨fun p hp => h p (hp.trans (List.prefix_append _ _)), h _ (List.prefix_refl _)⟩
  · rintro ⟨hdir, hlast⟩ p hp
    rcases List.prefix_concat_iff.mp hp with rfl | hp
    · exact hlast
    · exact hdir p hp

theorem Solid.of_prefix {p loc : Loc ν} (h : fs.Solid loc) (hp : p <+: loc) : fs.Solid p :=
  fun q hq => h q (hq.trans hp)

theorem Solid.dropLast {loc : Loc ν} (h : fs.Solid loc) : fs.Solid loc.dropLast :=
  h.of_prefix (List.dropLast_prefix _)

theorem Solid.get {loc : Loc ν} (h : fs.Solid loc) : ∃ mode, fs.get loc = some (.dir mode) :=
  h loc (List.prefix_refl _)

/-- What the end of a walk says: the way to it is solid. -/
def Ends (fs : Fs ν) (follow : Bool) : Resolved ν → Prop
  | .found loc =>
      fs.Solid loc.dropLast ∧ ∃ obj, fs.get loc = some obj ∧
        (follow = true → ∀ text, obj ≠ .link text)
  | .missing dir n => fs.Solid dir ∧ fs.get (dir ++ [n]) = none
  | .failed _ => True

/-- The same for a walk that may stop at a link. -/
def AdvanceEnds (fs : Fs ν) (follow : Bool) : Advance ν → Prop
  | .found loc => fs.Ends follow (.found loc)
  | .missing dir n => fs.Ends follow (.missing dir n)
  | .failed _ => True
  | .link dir _ _ => fs.Solid dir

/-- From a solid directory a walk ends at an object or a free name of a solid one. -/
theorem advance_ends (follow : Bool) {dir : Loc ν} (segs : List (Seg ν)) (hdir : fs.Solid dir) :
    fs.AdvanceEnds follow (fs.advance follow dir segs) := by
  induction segs generalizing dir with
  | nil =>
      rcases hdir.get with ⟨mode, hmode⟩
      exact ⟨hdir.dropLast, _, hmode, by simp⟩
  | cons seg rest ih =>
      cases seg with
      | cur => exact ih hdir
      | up => exact ih hdir.dropLast
      | name n =>
          have hlast : fs.Solid (dir ++ [n]).dropLast := by rwa [List.dropLast_concat]
          cases hget : fs.get (dir ++ [n]) with
          | none =>
              -- a name that is missing may only be the last one
              simp only [advance, hget]
              split
              · exact ⟨hdir, hget⟩
              · trivial
          | some obj =>
              cases obj with
              | dir mode =>
                  simp only [advance, hget]
                  exact ih (solid_concat.mpr ⟨hdir, mode, hget⟩)
              | file ino | special =>
                  simp only [advance, hget]
                  split
                  · exact ⟨hlast, _, hget, by simp⟩
                  · trivial
              | link text =>
                  -- a link is where the walk stops, unless it is the last name and not followed
                  simp only [advance, hget]
                  split
                  · rename_i hend
                    exact ⟨hlast, _, hget, by simp [hend.2]⟩
                  · exact hdir

/-- From a solid directory a resolution ends like a walk, whatever links it goes through. -/
theorem resolveFrom_ends {follow : Bool} {links : Nat} {dir : Loc ν} {segs : List (Seg ν)}
    (hdir : fs.Solid dir) : fs.Ends follow (fs.resolveFrom follow links dir segs) := by
  induction links generalizing dir segs with
  | zero =>
      have hends := advance_ends follow segs hdir
      unfold resolveFrom
      split <;> simp_all [AdvanceEnds, Ends]
  | succ links ih =>
      have hends := advance_ends follow segs hdir
      unfold resolveFrom
      split
      · simp_all [AdvanceEnds]
      · simp_all [AdvanceEnds]
      · trivial
      · -- the target of a link starts at the root or at the link's directory
        rename_i dir' text rest heq
        rw [heq] at hends
        refine ih ?_
        split
        · exact solid_nil
        · exact hends

/-- A resolution ends below a solid directory. -/
theorem resolve_ends (follow : Bool) (path : List (Seg ν)) :
    fs.Ends follow (fs.resolve follow path) :=
  resolveFrom_ends solid_nil

/-! ## Resolving a location -/

theorem resolveFrom_found {follow : Bool} {links : Nat} {dir loc : Loc ν} {segs : List (Seg ν)}
    (h : fs.advance follow dir segs = .found loc) :
    fs.resolveFrom follow links dir segs = .found loc := by
  rw [resolveFrom, h]

/-- A walk that ends at a free name is the resolution. -/
theorem resolveFrom_missing {follow : Bool} {links : Nat} {dir dir' : Loc ν} {n : ν}
    {segs : List (Seg ν)} (h : fs.advance follow dir segs = .missing dir' n) :
    fs.resolveFrom follow links dir segs = .missing dir' n := by
  rw [resolveFrom, h]

/-- Following the last link makes a difference only where a link stands last. -/
theorem advance_follow (dir : Loc ν) (segs : List (Seg ν)) :
    fs.advance true dir segs = fs.advance false dir segs ∨
      ∃ loc text, fs.advance false dir segs = .found loc ∧ fs.get loc = some (.link text) := by
  induction segs generalizing dir with
  | nil => exact .inl rfl
  | cons seg rest ih =>
      cases seg with
      | cur => exact ih dir
      | up => exact ih dir.dropLast
      | name n =>
          cases hget : fs.get (dir ++ [n]) with
          | none => simp [advance, hget]
          | some obj =>
              cases obj with
              | file | special => simp [advance, hget]
              | dir mode => simpa [advance, hget] using ih (dir ++ [n])
              | link text =>
                  -- only a link at the end makes a difference
                  by_cases hrest : rest = []
                  · exact .inr ⟨_, text, by simp [advance, hget, hrest], hget⟩
                  · simp [advance, hget, hrest]

/-- Without a link at its end a path is resolved the same with links followed. -/
theorem resolveFrom_follow {links : Nat} {dir : Loc ν} {segs : List (Seg ν)}
    (h : ∀ loc text, fs.resolveFrom false links dir segs = .found loc →
      fs.get loc ≠ some (.link text)) :
    fs.resolveFrom true links dir segs = fs.resolveFrom false links dir segs := by
  -- by induction on the links that may still be gone through
  induction links generalizing dir segs with
  | zero =>
      rcases @advance_follow _ _ fs dir segs with heq | ⟨last, text, hlast, htext⟩
      · rw [resolveFrom, resolveFrom, heq]
      · exact absurd htext (h last text (resolveFrom_found hlast))
  | succ links ih =>
      rcases @advance_follow _ _ fs dir segs with heq | ⟨last, text, hlast, htext⟩
      · rw [resolveFrom] at h
        rw [resolveFrom, resolveFrom, heq]
        split
        · rfl
        · rfl
        · rfl
        · rename_i hlink
          rw [hlink] at h
          exact ih h
      · exact absurd htext (h last text (resolveFrom_found hlast))

/-- A path whose end is no link is resolved the same with links followed. -/
theorem resolve_follow {path : List (Seg ν)}
    (h : ∀ loc text, fs.resolve false path = .found loc → fs.get loc ≠ some (.link text)) :
    fs.resolve true path = fs.resolve false path :=
  resolveFrom_follow h

/-! ## Trees that differ -/

section Extend

variable {fs' : Fs ν} {loc : Loc ν} {obj : Obj ν}

/-- Where something that is no link appears in an empty place, a walk goes on as before, and
one that missed the place finds it. -/
theorem advance_extend (hget : ∀ l, fs'.get l = if l = loc then some obj else fs.get l)
    (hnone : fs.get loc = none) (hobj : ∀ text, obj ≠ .link text) (follow : Bool) (dir : Loc ν)
    (segs : List (Seg ν)) :
    match fs.advance follow dir segs with
    | .missing dir' n => dir' ++ [n] = loc → fs'.advance follow dir segs = .found loc
    | .failed _ => True
    | .found l => fs'.advance follow dir segs = .found l
    | .link dir' text rest => fs'.advance follow dir segs = .link dir' text rest := by
  induction segs generalizing dir with
  | nil => rfl
  | cons seg rest ih =>
      cases seg with
      | cur => exact ih dir
      | up => exact ih dir.dropLast
      | name n =>
          cases hold : fs.get (dir ++ [n]) with
          | none =>
              -- a walk over the new object ends there: it was a free name before
              by_cases hrest : rest = []
              · subst hrest
                simp only [advance, hold, if_true]
                rintro rfl
                rw [hget, if_pos rfl]
                cases obj with
                | link text => exact absurd rfl (hobj text)
                | file | special | dir => rfl
              · simp [advance, hold, hrest]
          | some old =>
              -- all that the walk has seen was there before
              have hne : dir ++ [n] ≠ loc := by
                intro heq
                rw [heq, hnone] at hold
                cases hold
              have hnew : fs'.get (dir ++ [n]) = some old := by rw [hget, if_neg hne, hold]
              cases old with
              | dir mode =>
                  simp only [advance, hold, hnew]
                  exact ih (dir ++ [n])
              | link text =>
                  by_cases hlast : rest = [] ∧ follow = false <;>
                    simp [advance, hold, hnew, hlast]
              | file | special =>
                  by_cases hrest : rest = [] <;> simp [advance, hold, hnew, hrest]

/-- A path that ended at the free name now ends at the object there. -/
theorem resolveFrom_extend (hget : ∀ l, fs'.get l = if l = loc then some obj else fs.get l)
    (hnone : fs.get loc = none) (hobj : ∀ text, obj ≠ .link text) {follow : Bool} {links : Nat}
    {dir dir' : Loc ν} {n : ν} {segs : List (Seg ν)}
    (h : fs.resolveFrom follow links dir segs = .missing dir' n) (hloc : dir' ++ [n] = loc) :
    fs'.resolveFrom follow links dir segs = .found loc := by
  induction links generalizing dir segs with
  | zero | succ links =>
      have hwalk := advance_extend hget hnone hobj follow dir segs
      rw [resolveFrom] at h ⊢
      split at h <;> simp_all

end Extend

/-- A resolution sees only the objects. -/
theorem resolve_congr {fs' : Fs ν} (hget : ∀ l, fs'.get l = fs.get l) (follow : Bool)
    (path : List (Seg ν)) : fs'.resolve follow path = fs.resolve follow path := by
  -- first a walk without links, then the resolution around it
  have hadvance : ∀ dir segs, fs'.advance follow dir segs = fs.advance follow dir segs := by
    intro dir segs
    induction segs generalizing dir with
    | nil => rfl
    | cons seg rest ih => cases seg <;> simp [advance, hget, ih]
  have hresolve : ∀ links dir segs,
      fs'.resolveFrom follow links dir segs = fs.resolveFrom follow links dir segs := by
    intro links
    induction links with
    | zero =>
        intro dir segs
        rw [resolveFrom, resolveFrom, hadvance]
    | succ links ih =>
        intro dir segs
        rw [resolveFrom, resolveFrom, hadvance]
        simp only [ih]
  exact hresolve _ _ _

/-- A walk goes through solid directories name by name. -/
theorem advance_names (follow : Bool) {dir : Loc ν} {names : List ν}
    (segs : List (Seg ν)) (h : fs.Solid (dir ++ names)) :
    fs.advance follow dir (Loc.path names ++ segs) = fs.advance follow (dir ++ names) segs := by
  induction names generalizing dir with
  | nil => simp [Loc.path]
  | cons n names ih =>
      have hn : fs.Solid (dir ++ [n]) := by
        refine h.of_prefix ?_
        rw [show dir ++ n :: names = (dir ++ [n]) ++ names by simp]
        exact List.prefix_append _ _
      rcases (solid_concat.mp hn).2 with ⟨mode, hmode⟩
      have hrest := @ih (dir ++ [n]) (by simpa using h)
      simp only [Loc.path, List.map_cons, List.cons_append, advance, hmode]
      simpa [Loc.path] using hrest

/-- A solid directory is found under its own path. -/
theorem resolve_solid {follow : Bool} {dir : Loc ν} (h : fs.Solid dir) :
    fs.resolve follow dir.path = .found dir := by
  have hwalk := advance_names follow [] (show fs.Solid ([] ++ dir) from h)
  simp only [List.append_nil, List.nil_append] at hwalk
  exact resolveFrom_found hwalk

/-- A name in a solid directory: missing, or an object that is no link to be followed. -/
theorem resolve_concat {follow : Bool} {dir : Loc ν} {n : ν} (h : fs.Solid dir) :
    (fs.get (dir ++ [n]) = none → fs.resolve follow (dir ++ [n]).path = .missing dir n) ∧
    ∀ obj, fs.get (dir ++ [n]) = some obj → (follow = true → ∀ text, obj ≠ .link text) →
      fs.resolve follow (dir ++ [n]).path = .found (dir ++ [n]) := by
  -- the walk reaches the parent, where one name is left
  have hwalk := advance_names follow [.name n] (show fs.Solid ([] ++ dir) from h)
  simp only [List.nil_append] at hwalk
  have hpath : (dir ++ [n]).path = dir.path ++ [Seg.name n] := by simp [Loc.path]
  constructor
  · intro hget
    refine resolveFrom_missing ?_
    rw [hpath, hwalk]
    simp [advance, hget]
  · intro obj hget hlink
    refine resolveFrom_found ?_
    rw [hpath, hwalk]
    cases obj with
    | link text =>
        have hnofollow : follow = false := by
          cases follow with
          | false => rfl
          | true => exact absurd rfl (hlink rfl text)
        simp [advance, hget, hnofollow]
    | file ino | dir mode | special => simp [advance, hget]

/-- The plain names of the end of a resolution resolve to it. -/
theorem resolve_found_names {loc : Loc ν} {obj : Obj ν} (hsolid : fs.Solid loc.dropLast)
    (hget : fs.get loc = some obj) {follow : Bool}
    (hlink : follow = true → ∀ text, obj ≠ .link text) :
    fs.resolve follow loc.path = .found loc := by
  rcases List.eq_nil_or_concat loc with rfl | ⟨dir, n, rfl⟩
  · exact resolve_solid solid_nil
  · rw [List.concat_eq_append] at hsolid hget ⊢
    rw [List.dropLast_concat] at hsolid
    exact (resolve_concat hsolid).2 obj hget hlink

/-! ## Walking on -/

section Append

variable {follow : Bool} {dir loc : Loc ν} {segs rest : List (Seg ν)}

/-- A walk that ends in a directory goes on from there. -/
theorem advance_append {mode : Nat} (h : fs.advance true dir segs = .found loc)
    (hdir : fs.get loc = some (.dir mode)) :
    fs.advance follow dir (segs ++ rest) = fs.advance follow loc rest := by
  induction segs generalizing dir with
  | nil =>
      cases h
      rfl
  | cons seg segs ih =>
      cases seg with
      | cur => exact ih h
      | up => exact ih h
      | name n =>
          cases hget : fs.get (dir ++ [n]) with
          | none =>
              simp only [advance, hget] at h
              split at h <;> cases h
          | some obj =>
              cases obj with
              | dir mode =>
                  simp only [advance, hget] at h
                  simp only [List.cons_append, advance, hget]
                  exact ih h
              -- a walk that ends at a directory has gone through no link
              | link text => simp [advance, hget] at h
              | file | special =>
                  simp only [advance, hget] at h
                  split at h <;> cases h
                  rw [hget] at hdir
                  cases hdir

/-- A walk that stops at a link takes what follows along. -/
theorem advance_append_link {text : LinkText ν} {more : List (Seg ν)}
    (h : fs.advance true dir segs = .link loc text more) (hrest : rest ≠ []) :
    fs.advance follow dir (segs ++ rest) = .link loc text (more ++ rest) := by
  induction segs generalizing dir with
  | nil => cases h
  | cons seg segs ih =>
      cases seg with
      | cur => exact ih h
      | up => exact ih h
      | name n =>
          cases hget : fs.get (dir ++ [n]) with
          | none =>
              simp only [advance, hget] at h
              split at h <;> cases h
          | some obj =>
              cases obj with
              | dir mode =>
                  -- the walk goes on up to the link, where the rest is added to what was left
                  simp only [advance, hget] at h
                  simp only [List.cons_append, advance, hget]
                  exact ih h
              | link text' =>
                  simp only [advance, hget, Bool.true_eq_false, and_false, if_false] at h
                  cases h
                  simp [advance, hget, hrest]
              | file | special =>
                  simp only [advance, hget] at h
                  split at h <;> cases h

/-- What is behind a directory is resolved from there. -/
theorem resolveFrom_append_found {links mode : Nat} (h : fs.advance true dir segs = .found loc)
    (hdir : fs.get loc = some (.dir mode))
    (hlink : ∀ dir' text more, fs.advance follow loc rest ≠ .link dir' text more) :
    fs.resolveFrom follow links dir (segs ++ rest) = fs.resolveFrom follow 0 loc rest := by
  rw [resolveFrom, resolveFrom, advance_append h hdir]
  split
  · rfl
  · rfl
  · rfl
  · rename_i hwalk
    exact absurd hwalk (hlink _ _ _)

/-- What follows a path to a directory is resolved from there, if it meets no link. -/
theorem resolveFrom_append {links mode : Nat} (h : fs.resolveFrom true links dir segs = .found loc)
    (hdir : fs.get loc = some (.dir mode)) (hrest : rest ≠ [])
    (hlink : ∀ dir' text more, fs.advance follow loc rest ≠ .link dir' text more) :
    fs.resolveFrom follow links dir (segs ++ rest) = fs.resolveFrom follow 0 loc rest := by
  induction links generalizing dir segs with
  | zero =>
      rw [resolveFrom] at h
      split at h <;> cases h
      rename_i hfound
      exact resolveFrom_append_found hfound hdir hlink
  | succ links ih =>
      rw [resolveFrom] at h
      split at h
      · cases h
        rename_i hfound
        exact resolveFrom_append_found hfound hdir hlink
      · cases h
      · cases h
      · rename_i hstop
        -- the same link comes first, with the rest behind its target
        rw [resolveFrom, advance_append_link hstop hrest]
        dsimp only
        rw [← List.append_assoc]
        exact ih h

end Append

/-! ## Changing the tree -/

/-- An object is set at one location. -/
theorem get_set (fs : Fs ν) {loc loc' : Loc ν} (obj : Obj ν) (hloc : loc ≠ []) :
    (fs.set loc obj).get loc' = if loc' = loc then some obj else fs.get loc' := by
  by_cases hnil : loc' = []
  · subst hnil
    rw [if_neg (Ne.symm hloc), get_nil, get_nil]
  · by_cases heq : loc' = loc
    · subst heq
      simp [get, set, hnil]
    · simp [get, set, hnil, heq, Ne.symm heq]

/-- The children of a directory are the names that are there. -/
theorem mem_children {fs : Fs ν} {dir : Loc ν} {n : ν} :
    n ∈ fs.children dir ↔ fs.get (dir ++ [n]) ≠ none := by
  have hne : dir ++ [n] ≠ [] := by simp
  simp only [children, List.mem_dedup, List.mem_filterMap, Option.filter_eq_some_iff,
    decide_eq_true_eq, get, hne, if_false, ne_eq, Option.map_eq_none_iff, List.find?_eq_none,
    not_forall, not_not]
  constructor
  · rintro ⟨entry, hmem, -, heq⟩
    exact ⟨entry, hmem, by simp [heq]⟩
  · rintro ⟨entry, hmem, heq⟩
    have heq' : entry.1 = dir ++ [n] := by simpa using heq
    exact ⟨entry, hmem, by simp [heq'], heq'⟩

theorem children_nodup (fs : Fs ν) (dir : Loc ν) : (fs.children dir).Nodup :=
  List.nodup_dedup _

end Fs

end Posix

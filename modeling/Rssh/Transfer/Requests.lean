import Rssh.Transfer.Sftp

/-!
# What the SFTP requests answer

When a request of the session succeeds, and with what. The first part follows the parts that
requests are made of; the second is about the paths.

* `relativePath_ok`: what a path that is accepted can look like.
* `relativePath_virtual`: the virtual path of an accepted path is accepted as the same path.
* `realpath_answers_itself`: so an answer of `realpath` can be sent back in place of the path.
-/

namespace Rssh.Sftp

open Posix

variable {ν : Type}

/-! ## The parts of a request -/

section Parts

variable {α : Type} {s s' : Server ν}

theorem call_eq_ok_iff {c : Sys ν α} {value : α} :
    call c s = .ok value s' ↔ ∃ os', c s.os = .ok value os' ∧ s' = { s with os := os' } := by
  unfold call
  cases c s.os <;> simp [eq_comm]

theorem call_of_ok {c : Sys ν α} {value : α} {os' : Os ν} (h : c s.os = .ok value os') :
    call c s = .ok value { s with os := os' } :=
  call_eq_ok_iff.mpr ⟨os', h, rfl⟩

/-- A call that fails: the request fails with its status. -/
theorem call_of_error {c : Sys ν α} {errno : Errno} {os' : Os ν} (h : c s.os = .error errno os') :
    call c s = .error (mapIoStatus errno) { s with os := os' } := by
  simp only [call, h]

/-- A check succeeds exactly when its condition holds, and changes nothing. -/
theorem ensure_eq_ok_iff {condition : Prop} [Decidable condition] {code : StatusCode}
    {value : Unit} : ensure condition code s = .ok value s' ↔ condition ∧ s' = s := by
  unfold ensure
  by_cases h : condition
  · simp only [h, if_true, true_and]
    exact pure_eq_ok_iff.trans (by simp [eq_comm])
  · simp only [h, if_false, false_and, iff_false]
    exact nofun

/-- A result is handed on and changes nothing. -/
theorem ofExcept_eq_ok_iff {result : Except StatusCode α} {value : α} :
    ofExcept result s = .ok value s' ↔ result = .ok value ∧ s' = s := by
  cases result with
  | ok a => exact pure_eq_ok_iff.trans (by simp [eq_comm])
  | error code =>
      simp only [reduceCtorEq, false_and, iff_false]
      exact nofun

end Parts

/-- The server after a call that only looks. -/
def Server.looked (s : Server ν) : Server ν := { s with os := s.os.after s.os.fs [] }

variable [DecidableEq ν] {s s' : Server ν}

/-- A path is resolved when its relative part leads to a place inside the root. -/
theorem resolveExisting_eq_ok_iff {N : OsNames ν} {root loc : Loc ν} {requested : List Char} :
    resolveExisting N root requested s = .ok loc s' ↔
      ∃ relative, relativePath N requested = .ok relative ∧ s.os.fault s.os.calls = none ∧
        s.os.fs.canonicalize (joinRoot N root relative) = .ok loc ∧ root <+: loc ∧
        s' = s.looked := by
  simp only [resolveExisting, ensureContained, bind_eq_ok_iff, ofExcept_eq_ok_iff,
    call_eq_ok_iff, ensure_eq_ok_iff, observe_eq_ok_iff, pure_eq_ok_iff]
  constructor
  · rintro ⟨relative, _, ⟨hrelative, rfl⟩, resolved, _, ⟨_, ⟨hcalm, hresolved, rfl⟩, rfl⟩, _, _,
      ⟨hroot, rfl⟩, rfl, rfl⟩
    exact ⟨relative, hrelative, hcalm, hresolved, hroot, rfl⟩
  · rintro ⟨relative, hrelative, hcalm, hresolved, hroot, rfl⟩
    exact ⟨relative, _, ⟨hrelative, rfl⟩, loc, _, ⟨_, ⟨hcalm, hresolved, rfl⟩, rfl⟩, (), _,
      ⟨hroot, rfl⟩, rfl, rfl⟩

/-! ## Virtual paths -/

/-- What `relative_path` makes of a text it accepts. -/
def strippedPath (requested : List Char) : List Char :=
  if requested = ['.'] ∨ requested = ['/'] then []
  else stripPrefix ['/'] (stripPrefix ['.', '/'] requested)

/-- A relative path in the root: it does not go up, it is not absolute, and it has no prefix of a
drive. -/
structure Inner (N : OsNames ν) (relative : List Char) : Prop where
  noParent : Seg.up ∉ (RelPath.ofText N relative).segs
  noRoot : (RelPath.ofText N relative).absolute = false
  noPrefix : '\\' ∉ relative ∧ (Text.encodeUtf8 relative)[1]? ≠ some 0x3A

omit [DecidableEq ν] in
theorem stripPrefix_subset {start text : List Char} : stripPrefix start text ⊆ text := by
  unfold stripPrefix
  split
  · exact List.drop_subset _ _
  · exact List.Subset.refl _

/-- What `relative_path` has checked, unless the path is the root. -/
theorem relativePath_ok {N : OsNames ν} {requested relative : List Char}
    (h : relativePath N requested = .ok relative) :
    relative = strippedPath requested ∧ '\x00' ∉ relative ∧ '\\' ∉ relative ∧
      (Text.encodeUtf8 relative)[1]? ≠ some 0x3A ∧
      (relative ≠ [] → validateRelative (RelPath.ofText N relative) = true) := by
  unfold relativePath at h
  dsimp only at h
  split_ifs at h with hnul hroot hforeign hvalid
  · cases h
    refine ⟨?_, by simp, by simp, by simp [Text.encodeUtf8], fun hne => absurd rfl hne⟩
    simp [strippedPath, hroot]
  · cases h
    rw [not_or] at hforeign
    refine ⟨?_, ?_, hforeign.1, hforeign.2, fun _ => hvalid⟩
    · simp [strippedPath, hroot]
    · intro hmem
      exact hnul (stripPrefix_subset (stripPrefix_subset hmem))

/-- A path that is accepted stays in the root. -/
theorem relativePath_inner {N : OsNames ν} {requested relative : List Char}
    (h : relativePath N requested = .ok relative) : Inner N relative := by
  obtain ⟨-, -, hslash, hdrive, hvalid⟩ := relativePath_ok h
  by_cases hne : relative = []
  · subst hne
    exact ⟨by simp [RelPath.ofText, pieceSegs], rfl, hslash, hdrive⟩
  · have hchecks := hvalid hne
    simp only [validateRelative, Bool.and_eq_true, Bool.not_eq_true', decide_eq_true_eq] at hchecks
    exact ⟨hchecks.2, hchecks.1.2, hslash, hdrive⟩

/-- The answer of `realpath` for a relative path. -/
def virtualPath (relative : List Char) : List Char :=
  '/' :: relative.map fun c => if c = '\\' then '/' else c

/-- A virtual path is accepted as the path it was made of. -/
theorem relativePath_virtual {N : OsNames ν} {requested relative : List Char}
    (h : relativePath N requested = .ok relative) :
    relativePath N (virtualPath relative) = .ok relative := by
  obtain ⟨-, hnul, hslash, hdrive, hvalid⟩ := relativePath_ok h
  -- there is no backslash to replace
  have hvirtual : virtualPath relative = '/' :: relative := by
    unfold virtualPath
    rw [List.map_congr_left (g := id), List.map_id]
    intro c hc
    have hne : c ≠ '\\' := fun heq => hslash (heq ▸ hc)
    simp [hne]
  rw [hvirtual]
  unfold relativePath
  by_cases hne : relative = []
  · subst hne
    rfl
  · have hstrip : stripPrefix ['/'] (stripPrefix ['.', '/'] ('/' :: relative)) = relative := by
      simp [stripPrefix]
    rw [hstrip]
    simp [hnul, hne, hslash, hdrive, hvalid hne]

/-- `realpath` succeeds when the path resolves, and answers with its virtual path. -/
theorem realpath_eq_ok_iff {E : Env ν} {root : Loc ν} {id : UInt32} {path : List Char}
    {reply : Reply} :
    realpath E root id path s = .ok reply s' ↔
      ∃ relative loc, relativePath E.names path = .ok relative ∧
        resolveExisting E.names root path s = .ok loc s' ∧
        reply = .name id [⟨virtualPath relative, none⟩] := by
  simp only [realpath, bind_eq_ok_iff, ofExcept_eq_ok_iff, ensure_eq_ok_iff, pure_eq_ok_iff]
  constructor
  · rintro ⟨relative, _, ⟨hrelative, rfl⟩, loc, _, hloc, _, _, ⟨hroot, rfl⟩, rfl, rfl⟩
    exact ⟨relative, loc, hrelative, hloc, rfl⟩
  · rintro ⟨relative, loc, hrelative, hloc, rfl⟩
    obtain ⟨_, _, _, _, hroot, _⟩ := resolveExisting_eq_ok_iff.mp hloc
    exact ⟨relative, _, ⟨hrelative, rfl⟩, loc, _, hloc, (), _, ⟨hroot, rfl⟩, rfl, rfl⟩

/-- What `realpath` has answered for a path can stand for the path: it is accepted as the same
relative path, it is resolved in the same way, and as long as the tree stays and the system does
its calls, to the same object and to the same answer. All that is accepted as a path stays in the
root. -/
theorem realpath_answers_itself (E : Env ν) (root : Loc ν) :
    (∀ (id : UInt32) (path answer : List Char) (s s' : Server ν),
      realpath E root id path s = .ok (.name id [⟨answer, none⟩]) s' →
      (∃ relative, relativePath E.names path = .ok relative ∧
        relativePath E.names answer = .ok relative) ∧
      ∃ loc, resolveExisting E.names root path s = .ok loc s' ∧
        ∀ t : Server ν, t.os.fs = s.os.fs → t.os.fault t.os.calls = none → ∃ t',
          resolveExisting E.names root answer t = .ok loc t' ∧
          ∀ id', realpath E root id' answer t = .ok (.name id' [⟨answer, none⟩]) t') ∧
    ∀ requested relative, relativePath E.names requested = .ok relative →
      relative = strippedPath requested ∧ Inner E.names relative := by
  constructor
  · intro id path answer s s' hanswer
    obtain ⟨relative, loc, hrelative, hresolved, hreply⟩ := realpath_eq_ok_iff.mp hanswer
    obtain rfl : answer = virtualPath relative := by simpa using hreply
    -- the virtual path has the same relative part
    have hvirtual := relativePath_virtual hrelative
    refine ⟨⟨relative, hrelative, hvirtual⟩, loc, hresolved, ?_⟩
    intro t htree hcalm
    obtain ⟨relative', hsame, -, hloc, hroot, -⟩ := resolveExisting_eq_ok_iff.mp hresolved
    obtain rfl : relative = relative' := Except.ok.inj (hrelative.symm.trans hsame)
    have hagain : resolveExisting E.names root (virtualPath relative) t = .ok loc t.looked :=
      resolveExisting_eq_ok_iff.mpr
        ⟨relative, hvirtual, hcalm, htree ▸ hloc, hroot, rfl⟩
    refine ⟨t.looked, hagain, ?_⟩
    intro id'
    exact realpath_eq_ok_iff.mpr ⟨relative, loc, hvirtual, hagain, rfl⟩
  · intro requested relative hrelative
    exact ⟨(relativePath_ok hrelative).1, relativePath_inner hrelative⟩

/-- The root, spelled as `.//.`, is answered as `/.`. -/
theorem realpath_answers_itself_dot :
    ∃ s', realpath textEnv [['r']] 1 ".//.".toList { os := { fs := danglingRoot } } =
        .ok (.name 1 [⟨"/.".toList, none⟩]) s' ∧
      ∃ relative, relativePath textNames ".//.".toList = .ok relative ∧
        relativePath textNames "/.".toList = .ok relative := by
  have hanswer : realpath textEnv [['r']] 1 ".//.".toList { os := { fs := danglingRoot } } =
      .ok (.name 1 [⟨"/.".toList, none⟩]) (Server.looked { os := { fs := danglingRoot } }) := rfl
  exact ⟨_, hanswer, ((realpath_answers_itself textEnv [['r']]).1 1 _ _ _ _ hanswer).1⟩

end Rssh.Sftp

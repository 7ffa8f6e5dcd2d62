import Agora.Proofs.Settings.Expansion
import Agora.Settings.Reader

namespace Agora

namespace Environment

def LeavesBlank (env : Environment) : Piece → Prop
  | .char c => Text.isBlank c
  | .reference name => ∀ value, env.get? name = some value → Settings.isBlankText value

theorem allBlank_text {env : Environment} {piece : Piece} {x : List Char}
    (h : piece.text env = .ok x) : Text.allBlank x ↔ env.LeavesBlank piece := by
  cases piece with
  | char c =>
    cases h
    simp [Text.allBlank, LeavesBlank]
  | reference name =>
    rw [Piece.text] at h
    cases hvalue : env.get? name with
    | none =>
      rw [hvalue] at h
      cases h
    | some value =>
      rw [hvalue] at h
      cases h
      simp [LeavesBlank, Settings.isBlankText, hvalue]

theorem allBlank_textOf {env : Environment} {ps : List Piece} {t : List Char}
    (h : env.textOf ps = .ok t) : Text.allBlank t ↔ ∀ piece ∈ ps, env.LeavesBlank piece := by
  induction ps generalizing t with
  | nil =>
    cases h
    simp [Text.allBlank]
  | cons piece ps ih =>
    obtain ⟨x, u, hpiece, hps, rfl⟩ := textOf_cons_eq_ok.1 h
    rw [List.forall_mem_cons, ← allBlank_text hpiece, ← ih hps]
    simp [Text.allBlank]

theorem isBlankText_resolve {env : Environment} {s p : String} (h : env.resolve s = .ok p) :
    Settings.isBlankText p ↔ ∀ piece ∈ pieces s.toList, env.LeavesBlank piece := by
  rw [resolve_eq] at h
  cases ht : env.textOf (pieces s.toList) with
  | error name =>
    rw [ht] at h
    cases h
  | ok t =>
    rw [ht] at h
    cases h
    rw [Settings.isBlankText, String.toList_ofList, allBlank_textOf ht]

end Environment

open Environment

theorem Settings.path_of_ofToml {text : String} {s : Settings} (h : ofToml text = .ok s) :
    isBlankText s.database.path = false := by
  unfold ofToml at h
  split at h
  · cases h
  · unfold validate at h
    split at h
    · cases h
    · split at h
      · cases h
      · split at h <;> cases h
        simp_all

/-- The path that is opened is blank only if all its variables are and only blanks stand around
them; it is `:memory:` without being known to be only if it comes from variables. -/
theorem DatabaseSettings.checks_of_resolvedPath {text p : String} {s : Settings}
    {env : Environment} (h : Settings.ofToml text = .ok s)
    (hp : s.database.resolvedPath env = .ok p) :
    (Settings.isBlankText p ↔
        references s.database.path ≠ [] ∧
          ∀ piece ∈ pieces s.database.path.toList, env.LeavesBlank piece) ∧
      (s.database.isInMemory ↔ p = memoryPath ∧ references s.database.path = []) := by
  rw [resolvedPath] at hp
  have hkept (hnone : references s.database.path = []) : s.database.path = p :=
    Except.ok.inj ((env.resolve_of_no_references hnone).symm.trans hp)
  have hmemory : references memoryPath = [] := by decide +kernel
  constructor
  · rw [isBlankText_resolve hp, iff_and_self]
    intro hblank hnone
    rw [← isBlankText_resolve hp, ← hkept hnone, Settings.path_of_ofToml h] at hblank
    cases hblank
  · rw [isInMemory, decide_eq_true_eq]
    constructor
    · intro hpath
      have hnone : references s.database.path = [] := hpath ▸ hmemory
      exact ⟨(hkept hnone).symm.trans hpath, hnone⟩
    · rintro ⟨rfl, hnone⟩
      exact hkept hnone

theorem DatabaseSettings.checks_of_resolvedPath_blank :
    let s : Settings := { database := { path := " $\x7bA\x7d$\x7bB\x7d" } }
    let env : Environment := { entries := [("A", "\t"), ("B", "")] }
    (Settings.ofToml "database.path=' $\x7bA\x7d$\x7bB\x7d'" = .ok s ∧
        s.database.resolvedPath env = .ok " \t") ∧
      Settings.isBlankText " \t" ∧ s.database.isInMemory = false := by
  intro s env
  have hs : Settings.ofToml "database.path=' $\x7bA\x7d$\x7bB\x7d'" = .ok s :=
    ok_of_toOption (by decide +kernel)
  have hp : s.database.resolvedPath env = .ok " \t" :=
    ok_of_toOption (by decide +kernel)
  have hpieces : pieces s.database.path.toList = [.char ' ', .reference "A", .reference "B"] := by
    decide +kernel
  obtain ⟨hblank, hmemory⟩ := checks_of_resolvedPath hs hp
  refine ⟨⟨hs, hp⟩, hblank.2 ⟨by simp [references, hpieces, Piece.name?], ?_⟩, ?_⟩
  · rw [hpieces]
    simp only [List.forall_mem_cons]
    refine ⟨show Text.isBlank ' ' by decide, fun value h => ?_, fun value h => ?_, by simp⟩
    · obtain rfl : "\t" = value := Option.some.inj h
      decide
    · obtain rfl : "" = value := Option.some.inj h
      decide
  · rw [← Bool.not_eq_true, hmemory]
    simp [memoryPath]

/-- Neither check sees what a variable holds: the path that is opened may be `:memory:` while it is
taken for a file, and it may be blank. -/
theorem DatabaseSettings.checks_blind_to_variables :
    ∃ s, Settings.ofToml "[database]\npath = \"$\x7bDB\x7d\"\n" = .ok s ∧
      (s.database.resolvedPath { entries := [("DB", ":memory:")] } = .ok memoryPath ∧
        s.database.isInMemory = false) ∧
      s.database.resolvedPath { entries := [("DB", " ")] } = .ok " " ∧
        Settings.isBlankText " " := by
  refine ⟨{ database := { path := "$\x7bDB\x7d" } }, ok_of_toOption (by decide +kernel),
    ⟨?_, ?_⟩, ?_, ?_⟩
  · exact ok_of_toOption (by decide +kernel)
  · decide
  · exact ok_of_toOption (by decide +kernel)
  · decide

end Agora

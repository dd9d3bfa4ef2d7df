import RouteBinder.Project.Shell.Run
import RouteBinder.Proofs.Project.Runs

/-!
# RouteBinder.Proofs.Project.Formatting

**When a formatter leaves a text.** A formatter that does not start, that takes too long or that ends with
a status other than zero leaves the text as it was, whatever it wrote. One that ends with zero leaves what
its output stands for, so it leaves nothing at all when its output is not UTF-8. Nor does a command leave
anything that cannot be given to a process, because a word of it has a null character
(`Shell.run_eq_malformed_iff`). There is no third way to leave no text (`Formatter.format_returns_iff`).
-/

namespace RouteBinder.Project

open FileSystem

namespace Formatter

variable {outcome : Outcome} {output : ByteArray} {file text : String} {limit : Nat}
  {noted : Noted String}

/-! ### Output -/

/-- Bytes are read as the text that they encode. -/
theorem fromUTF8?_eq_some_iff : String.fromUTF8? output = some text ↔ text.toUTF8 = output := by
  rw [String.fromUTF8?, String.toUTF8_eq_toByteArray]
  split
  · exact Option.some_inj.trans (eq_comm.trans String.toByteArray_inj.symm)
  · rename_i hinvalid
    refine ⟨nofun, fun h => absurd ?_ hinvalid⟩
    rw [← h]
    exact text.isValidUTF8

/-- The command ended with the status zero, and with this output. -/
def Outcome.Succeeds (outcome : Outcome) (output : ByteArray) : Prop :=
  ∃ errors, outcome = .exited 0 output errors

/-- Nothing keeps an outcome from leaving a text but a command that cannot be tried, and success with
output that is no text. -/
theorem Outcome.defect?_eq_none_iff :
    outcome.defect? = none ↔
      outcome ≠ .malformed ∧
        ∀ output, outcome.Succeeds output → ∃ written : String, written.toUTF8 = output := by
  cases outcome with
  | malformed => simp [defect?]
  | notStarted => simp [defect?, Succeeds]
  | timedOut => simp [defect?, Succeeds]
  | exited status output errors =>
      by_cases hs : status = 0
      · subst hs
        have htext : (String.fromUTF8? output).isSome = true ↔
            ∃ written : String, written.toUTF8 = output := by
          rw [Option.isSome_iff_exists]
          exact exists_congr fun _ => fromUTF8?_eq_some_iff
        simp [defect?, Succeeds, htext]
      · simp [Outcome.defect?_exited hs, Succeeds, hs]

/-! ### Results -/

/-- What is concluded from an outcome is the output of a command that succeeded, or else the text. -/
theorem value_of_conclude (h : conclude file text limit outcome = .ok noted) :
    outcome.Succeeds noted.value.toUTF8 ∨
      (∀ output, ¬ outcome.Succeeds output) ∧ noted.value = text := by
  cases outcome with
  | malformed => cases h
  | notStarted =>
      cases h
      exact Or.inr ⟨by simp [Outcome.Succeeds], rfl⟩
  | timedOut =>
      cases h
      exact Or.inr ⟨by simp [Outcome.Succeeds], rfl⟩
  | exited status output errors =>
      rw [conclude] at h
      split at h
      · rename_i hs
        obtain rfl := beq_iff_eq.1 hs
        split at h
        · rename_i formatted hformatted
          cases h
          exact Or.inl ⟨errors, by rw [fromUTF8?_eq_some_iff.1 hformatted]⟩
        · cases h
      · rename_i hs
        cases h
        refine Or.inr ⟨?_, rfl⟩
        rintro output' ⟨errors', heq⟩
        cases heq
        exact hs rfl

/-- **Formatting leaves a text unless** the command cannot be tried, or it succeeds with output that is not
UTF-8. The text is the output of a command that succeeded; otherwise it is the one that was given. -/
theorem format_returns_iff (run : Runner) (command : List String) (limit : Nat) (path : Path)
    (text : String) :
    ((∃ noted, format run command limit path text = .ok noted) ↔
        command = [] ∨
          run (withPath command path) text limit ≠ .malformed ∧
            ∀ output, (run (withPath command path) text limit).Succeeds output →
              ∃ written : String, written.toUTF8 = output) ∧
      ∀ noted, format run command limit path text = .ok noted →
        (command ≠ [] ∧ (run (withPath command path) text limit).Succeeds noted.value.toUTF8) ∨
          ((command = [] ∨ ∀ output, ¬ (run (withPath command path) text limit).Succeeds output) ∧
            noted.value = text) := by
  rw [← Outcome.defect?_eq_none_iff, format]
  by_cases hcommand : command = []
  · rw [hcommand, List.isEmpty_nil, if_pos rfl]
    refine ⟨iff_of_true ⟨_, rfl⟩ (Or.inl rfl), fun noted h => ?_⟩
    cases h
    exact Or.inr ⟨Or.inl rfl, rfl⟩
  · rw [if_neg (by rwa [List.isEmpty_iff])]
    refine ⟨?_, fun noted h => ?_⟩
    · rw [or_iff_right hcommand]
      cases hc : conclude path.name text limit (run (withPath command path) text limit) with
      | ok noted =>
          refine iff_of_true ⟨noted, rfl⟩ (Option.eq_none_iff_forall_ne_some.2 fun defect hd => ?_)
          rw [conclude_eq_error_iff.2 hd] at hc
          cases hc
      | error defect =>
          rw [conclude_eq_error_iff] at hc
          simp [hc]
    · rcases value_of_conclude h with hs | ⟨hs, hvalue⟩
      · exact Or.inl ⟨hcommand, hs⟩
      · exact Or.inr ⟨Or.inr hs, hvalue⟩

/-- A command that succeeds with a byte that begins no character leaves no text. -/
theorem not_format_invalidByte :
    ¬ ∃ noted, format (fun _ _ _ => .exited 0 ⟨#[0xff]⟩ .empty) ["/bin/sh", "-c", "printf '\\377'"]
      timeLimit (.ofString "api/client-sdk.ts") "x" = .ok noted := by
  have hfails : (format (fun _ _ _ => .exited 0 ⟨#[0xff]⟩ .empty) ["/bin/sh", "-c", "printf '\\377'"]
      timeLimit (.ofString "api/client-sdk.ts") "x").isOk = false := by decide +kernel
  rintro ⟨noted, h⟩
  rw [h] at hfails
  cases hfails

end Formatter

namespace Shell

/-- The commands that cannot be tried are those with a null character in one of their words. -/
theorem run_eq_malformed_iff {command : List String} {input : String} {limit : Nat} :
    run command input limit = .malformed ↔ ∃ word ∈ command, Text.hasNull word = true := by
  rw [← List.any_eq_true, run]
  split
  · rename_i hnull
    simp [hnull]
  · rename_i hnull
    refine iff_of_false ?_ hnull
    cases effect? command input.toUTF8 with
    | none => nofun
    | some effect =>
        dsimp only
        split <;> nofun

end Shell

end RouteBinder.Project

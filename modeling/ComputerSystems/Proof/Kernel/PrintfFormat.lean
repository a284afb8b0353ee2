import ComputerSystems.Construction.Kernel.Printf
import ComputerSystems.Proof.Kernel.ProcessTable

namespace ComputerSystems.Kernel
open ComputerSystems.Library

/-- How one character of a format changes the way the next one is read. -/
def nextMode : PrintMode → UInt8 → PrintMode
  | .text, letter => if letter = 37 then .conversion false else .text
  | .conversion _, letter => if letter = 35 then .conversion true else .text

/-- How a character behind the whole format is read. -/
def formatMode (format : List UInt8) : PrintMode := format.foldl nextMode .text

/-- The call ends at the terminator of its format and reads nothing behind it. -/
def StopsAtEnd (call : PrintCall) (format : CString) (console : Console) : Prop :=
  ∃ result, Printf call console result ∧ result.1 = format.bytes.length ∧
    ∀ index ∈ result.2.read, index ≤ format.bytes.length

section
variable {call : PrintCall} {state : Printing}

/-- A round goes on with the next character unless it finds the terminator in the text. -/
theorem printfRound_next (goes : state.mode = .text → call.format state.buf ≠ 0) :
    ∃ next, printfRound call state = .inr next ∧ next.buf = state.buf + 1 ∧
      next.mode = nextMode state.mode (call.format state.buf) ∧
      next.read = state.buf :: state.read := by
  unfold printfRound nextMode
  cases mode : state.mode with
  | text =>
      have letter := goes mode
      dsimp only
      rw [if_neg letter]
      split_ifs with percent
      · exact ⟨_, rfl, rfl, rfl, rfl⟩
      · exact ⟨_, rfl, rfl, rfl, rfl⟩
  | conversion alternate =>
      dsimp only
      split_ifs with sign
      · exact ⟨_, rfl, rfl, rfl, rfl⟩
      · exact ⟨_, rfl, rfl, rfl, rfl⟩

theorem printfRound_end (mode : state.mode = .text) (terminator : call.format state.buf = 0) :
    printfRound call state =
      .inl (state.buf, { state with read := state.buf :: state.read }) := by
  unfold printfRound
  rw [mode]
  dsimp only
  rw [if_pos terminator]

/-- A call reads the character that it stands at, and no read is taken back. -/
theorem printf_reads {fuel : Nat} {result : Nat × Printing}
    (returned : returnLoop (printfRound call) fuel state = some result) :
    ∀ index ∈ state.buf :: state.read, index ∈ result.2.read := by
  induction fuel generalizing state with
  | zero => cases returned
  | succ fuel inductionHypothesis =>
      rw [returnLoop] at returned
      by_cases ends : state.mode = .text ∧ call.format state.buf = 0
      · rw [printfRound_end ends.1 ends.2] at returned
        cases returned
        exact fun index member => member
      · obtain ⟨next, round, _, _, read⟩ :=
          printfRound_next fun mode terminator => ends ⟨mode, terminator⟩
        rw [round] at returned
        intro index member
        apply inductionHypothesis returned
        rw [read]
        exact List.mem_cons_of_mem _ member

end

section
variable {call : PrintCall} {format : CString}

/-- The rounds up to a place of the format read one character each. -/
theorem printf_reaches (console : Console)
    (starts : ∀ index ≤ format.bytes.length, call.format index = format.get index) {done : Nat}
    (inside : done ≤ format.bytes.length) :
    ∃ state : Printing,
      (∀ fuel, returnLoop (printfRound call) (fuel + done) ⟨.text, 0, 0, console, []⟩ =
        returnLoop (printfRound call) fuel state) ∧
      state.buf = done ∧ state.mode = formatMode (format.bytes.take done) ∧
      ∀ index ∈ state.read, index < done := by
  induction done with
  | zero => exact ⟨_, fun _ => rfl, rfl, rfl, fun index none => absurd none List.not_mem_nil⟩
  | succ done inductionHypothesis =>
      obtain ⟨state, runs, place, mode, read⟩ := inductionHypothesis (by omega)
      have letter : call.format state.buf = format.bytes[done] := by
        rw [place, starts done (by omega), CString.get, List.getD_eq_getElem?_getD,
          List.getElem?_eq_getElem (by omega), Option.getD_some]
      have nonzero : call.format state.buf ≠ 0 := by
        intro zero
        apply format.noTerminator
        rw [← zero, letter]
        exact List.getElem_mem _
      obtain ⟨next, round, nextPlace, nextModes, nextRead⟩ := printfRound_next fun _ => nonzero
      refine ⟨next, fun fuel => ?_, by rw [nextPlace, place], ?_, fun index member => ?_⟩
      · rw [show fuel + (done + 1) = fuel + 1 + done by omega, runs, returnLoop, round]
      · rw [nextModes, mode, letter, formatMode, formatMode, List.take_succ_eq_append_getElem,
          List.foldl_append]
        rfl
      · rw [nextRead, place] at member
        rcases List.mem_cons.1 member with rfl | earlier
        · exact Nat.lt_succ_self index
        · exact Nat.lt_succ_of_lt (read index earlier)

/-- A call stops at the end of its format exactly when no conversion is open there. -/
theorem printf_stopsAtEnd_iff (console : Console)
    (starts : ∀ index ≤ format.bytes.length, call.format index = format.get index) :
    StopsAtEnd call format console ↔ formatMode format.bytes = .text := by
  obtain ⟨state, runs, place, mode, read⟩ := printf_reaches console starts le_rfl
  rw [List.take_length] at mode
  have terminator : call.format state.buf = 0 := by
    rw [place, starts _ le_rfl, CString.get, List.getD_eq_getElem?_getD,
      List.getElem?_eq_none le_rfl, Option.getD_none]
  constructor
  · rintro ⟨result, ⟨fuel, returned⟩, _, inside⟩
    by_contra opened
    have goes : state.mode = .text → call.format state.buf ≠ 0 :=
      fun text => absurd (mode.symm.trans text) opened
    obtain ⟨next, round, nextPlace, _, _⟩ := printfRound_next goes
    have long := returnLoop_more returned (1 + format.bytes.length)
    rw [← Nat.add_assoc, runs, returnLoop, round] at long
    have beyond := inside _ (printf_reads long next.buf List.mem_cons_self)
    omega
  · intro closed
    have round := printfRound_end (mode.trans closed) terminator
    refine ⟨(state.buf, { state with read := state.buf :: state.read }),
      ⟨1 + format.bytes.length, ?_⟩, place, fun index member => ?_⟩
    · rw [runs, returnLoop, round]
    · rcases List.mem_cons.1 member with rfl | earlier
      · exact place.le
      · exact (read index earlier).le

end

/-- A call whose format is followed by other strings in memory. -/
def sampleCall (memory : List UInt8) : PrintCall where
  format index := memory.getD index 0
  arguments _ := 7
  strings _ := ⟨[], by decide⟩
  stack _ _ := 0

theorem printf_stopsAtEnd_iff_signed :
    StopsAtEnd (sampleCall [37, 100, 0, 65]) ⟨[37, 100], by decide⟩ coldMachine.console :=
  (printf_stopsAtEnd_iff coldMachine.console (by decide)).2 (by decide)

/-- A percent sign at the end of a format lets the call print what follows in memory. -/
theorem printf_overruns :
    (∀ index ≤ 1, (sampleCall [37, 0, 65, 0]).format index = CString.get ⟨[37], by decide⟩ index) ∧
      ¬ StopsAtEnd (sampleCall [37, 0, 65, 0]) ⟨[37], by decide⟩ coldMachine.console := by
  refine ⟨by decide, ?_⟩
  rintro ⟨result, ⟨fuel, returned⟩, stopped, _⟩
  have ran : ∃ printed, returnLoop (printfRound (sampleCall [37, 0, 65, 0])) 4
      ⟨.text, 0, 0, coldMachine.console, []⟩ = some (3, printed) :=
    ⟨_, rfl⟩
  obtain ⟨printed, ran⟩ := ran
  have same := returnLoop_unique ran returned
  rw [← same] at stopped
  change 3 = 1 at stopped
  omega

end ComputerSystems.Kernel

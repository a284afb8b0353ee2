import ComputerSystems.Proof.Kernel.TerminalScreens

namespace ComputerSystems.Kernel
open ComputerSystems.Library

/-- The bytes from the first address up to the last are zero. -/
def Zeroed (video : Nat → UInt8) (first last : Nat) : Prop :=
  ∀ address, first ≤ address → address < last → video address = 0

/-- The end of the last backing page. -/
abbrev videoEnd : Nat := storageLocation 2 + kb4

/-- A screen to which nothing was written. -/
def Screen.blank : Screen := ⟨fun _ => (0, 0), 0, 0⟩

/-- The video pages are cleared, and so a terminal shows only what was written to it. -/
structure ClearsPages (machine : Machine) : Prop where
  cleared : Zeroed (initTerminals machine.console).video videoBase videoEnd
  frame : ∀ address, address < videoBase ∨ videoEnd ≤ address →
    (initTerminals machine.console).video address = machine.console.video address
  shows : ∀ (fs : FileSystem) (events : List ScreenEvent) (final : Machine),
    run (screenStep fs) (freshScreens machine) events = .ok final →
      ∀ index, ∀ cell < numRows * numCols,
        cellAt final.console.video (final.console.terminals index).videoStart cell =
          (events.foldl (ownEvent index) Screen.blank).cell cell

theorem initTerminals_video_inside (console : Console) {address : Nat}
    (low : videoBase + videoBase ≤ address) (high : address < videoBase + videoEnd) :
    (initTerminals console).video address = 0 := by
  unfold initTerminals
  dsimp only
  rw [if_pos ⟨low, by rw [Nat.add_assoc]; exact high⟩]

theorem initTerminals_video_outside (console : Console) {address : Nat}
    (outside : address < videoBase + videoBase ∨ videoBase + videoEnd ≤ address) :
    (initTerminals console).video address = console.video address := by
  unfold initTerminals
  dsimp only
  rw [if_neg]
  rintro ⟨low, high⟩
  rw [Nat.add_assoc] at high
  rcases outside with below | beyond
  · exact absurd low (Nat.not_le.2 below)
  · exact absurd high (Nat.not_lt.2 beyond)

theorem videoEnd_eq : videoEnd = 0xBC000 := rfl

/-- The first place of a terminal lies in the video pages. -/
theorem firstPlace_inside (index : Fin 3) :
    videoBase ≤ screenPlace 0 index ∧ screenPlace 0 index + kb4 ≤ videoEnd := by
  revert index
  decide

/-- Terminals on cleared pages start with blank screens. -/
theorem drawn_blank {machine : Machine}
    (cleared : Zeroed (initTerminals machine.console).video videoBase videoEnd) :
    Drawn (freshScreens machine).console fun _ => Screen.blank := by
  have fresh := drawn_freshScreens machine
  constructor
  case storage => exact fresh.storage
  case videoStart => exact fresh.videoStart
  case cursor =>
    intro place set
    cases set
  case shows =>
    intro index
    refine ⟨rfl, rfl, fun cell inside => ?_⟩
    have place := firstPlace_inside index
    rw [fresh.videoStart index]
    change cellAt (initTerminals machine.console).video (screenPlace 0 index) cell = (0, 0)
    simp only [numRows, numCols] at inside
    simp only [kb4] at place
    unfold cellAt
    rw [cleared _ (by omega) (by omega), cleared _ (by omega) (by omega)]

/-- The pages are cleared exactly when they and the bytes that the loop really clears are zero
before the call. -/
theorem initTerminals_clearsPages_iff (machine : Machine) :
    ClearsPages machine ↔
      Zeroed machine.console.video videoBase videoEnd ∧
        Zeroed machine.console.video (videoBase + videoBase) (videoBase + videoEnd) := by
  constructor
  · intro clears
    refine ⟨fun address low high => ?_, fun address low high => ?_⟩
    · have cleared := clears.cleared address low high
      rw [initTerminals_video_outside] at cleared
      · exact cleared
      · rw [videoEnd_eq] at high ⊢
        simp only [videoBase] at low ⊢
        omega
    · rw [← clears.frame address]
      · exact initTerminals_video_inside machine.console low high
      · rw [videoEnd_eq] at high ⊢
        simp only [videoBase] at low ⊢
        omega
  · rintro ⟨pages, beyond⟩
    have cleared : Zeroed (initTerminals machine.console).video videoBase videoEnd := by
      intro address low high
      rw [initTerminals_video_outside]
      · exact pages address low high
      · rw [videoEnd_eq] at high ⊢
        simp only [videoBase] at low ⊢
        omega
    refine ⟨cleared, fun address outside => ?_, fun fs events final reached index cell inside => ?_⟩
    · by_cases touched : videoBase + videoBase ≤ address ∧ address < videoBase + videoEnd
      · rw [initTerminals_video_inside machine.console touched.1 touched.2]
        exact (beyond address touched.1 touched.2).symm
      · apply initTerminals_video_outside
        omega
    · have drawn := (drawn_blank cleared).run reached
      exact (drawn.shows index).cells cell inside

/-- A byte of the page of the second terminal keeps its old value. -/
theorem initTerminals_leaves_page :
    ¬ ∀ machine : Machine, ClearsPages machine := by
  intro always
  have clears := always { coldMachine with
    console := { coldMachine.console with
      video := fun address => if address = 0xBA000 then 65 else 0 } }
  have cleared := clears.cleared 0xBA000 (by decide) (by decide)
  exact absurd cleared (by decide)

end ComputerSystems.Kernel

import ComputerSystems.Proof.Kernel.Channels

namespace ComputerSystems.Kernel
open ComputerSystems.Library

/-- The bytes that reads of a channel still deliver. -/
def Channel.rest (fs : FileSystem) : Channel → List UInt8
  | .terminal => []
  | .file reader => reader.data.drop reader.position
  | .listing position => (List.range' position (fs.dirCount - position)).flatMap fun index =>
      (fs.direntries index).fullName
  | .clock _ => []

/-- After its last entry a directory reads as empty, or as an error when all of it is in use. -/
def Channel.failsAtEnd (fs : FileSystem) : Channel → Bool
  | .listing _ => numFiles ≤ fs.dirCount
  | _ => false

/-- A read goes on inside what a channel has to deliver. -/
def Channel.Inside (fs : FileSystem) : Channel → Prop
  | .terminal => False
  | .listing position => position ≤ fs.dirCount
  | _ => True

section
variable {fs : FileSystem} {channels : Channels} {channel : Channel} {fd : Int} {index : Fin 8}

theorem Channel.rest_listing {position : Nat} (inside : position < fs.dirCount) :
    Channel.rest fs (.listing position) =
      (fs.direntries position).fullName ++ Channel.rest fs (.listing (position + 1)) := by
  have size : fs.dirCount - position = (fs.dirCount - (position + 1)) + 1 := by omega
  rw [Channel.rest, Channel.rest, size, List.range'_succ, List.flatMap_cons]

/-- A read delivers the next bytes, or nothing at the end. -/
inductive Taken (fs : FileSystem) (channel : Channel) (channels : Channels) (index : Fin 8) :
    Reply × Channels → Prop where
  | more {later : Channel} {bytes : List UInt8} (some : bytes ≠ [])
      (split : channel.rest fs = bytes ++ later.rest fs) (inside : later.Inside fs)
      (same : later.failsAtEnd fs = channel.failsAtEnd fs) :
      Taken fs channel channels index
        (⟨bytes.length, bytes⟩, Function.update channels index (Option.some later))
  | done {after : Channels} (empty : channel.rest fs = []) (works : channel.failsAtEnd fs = false) :
      Taken fs channel channels index (⟨0, []⟩, after)
  | failed (empty : channel.rest fs = []) (fails : channel.failsAtEnd fs = true) :
      Taken fs channel channels index (⟨-1, []⟩, channels)

theorem taken_read (listed : ListedImage fs) (descriptor : fdIndex fd = some index)
    (seen : channels index = some channel) (inside : channel.Inside fs) {count : Nat}
    (positive : 0 < count) : Taken fs channel channels index (channels.read fs fd count) := by
  unfold Channels.read
  rw [descriptor]
  dsimp only
  rw [seen]
  cases channel with
  | terminal => exact absurd inside id
  | clock rate => exact .done rfl rfl
  | file reader =>
      dsimp only
      by_cases ended : reader.data.drop reader.position = []
      · have nothing : reader.piece count = [] := by rw [Reader.piece, ended, List.take_nil]
        rw [nothing]
        exact .done ended rfl
      · refine .more ?_ ?_ trivial rfl
        · rw [Reader.piece, ne_eq, List.take_eq_nil_iff]
          rintro (zero | empty)
          · omega
          · exact ended empty
        · have after : (reader.advance count).data.drop (reader.advance count).position =
              (reader.data.drop reader.position).drop count := by
            rw [List.drop_drop]
            change reader.data.drop (min (reader.position + count) reader.data.length) = _
            rcases Nat.le_total (reader.position + count) reader.data.length with within | beyond
            · rw [Nat.min_eq_left within]
            · rw [Nat.min_eq_right beyond, List.drop_length, List.drop_eq_nil_of_le beyond]
          rw [Channel.rest, Channel.rest, after]
          exact (List.take_append_drop count _).symm
  | listing position =>
      dsimp only
      have bound : position ≤ fs.dirCount := inside
      have count := listed.count
      rcases Nat.lt_or_eq_of_le bound with within | rfl
      · rw [if_pos (within.trans_le count)]
        exact .more (listed.named position within) (Channel.rest_listing within)
          (Nat.succ_le_of_lt within) rfl
      · have empty : Channel.rest fs (.listing fs.dirCount) = [] := by
          rw [Channel.rest, Nat.sub_self]
          rfl
        by_cases room : fs.dirCount < numFiles
        · rw [if_pos room, listed.unnamed (Nat.le_refl _) room]
          exact .done empty (decide_eq_false (Nat.not_le_of_lt room))
        · rw [if_neg room]
          exact .failed empty (decide_eq_true (Nat.le_of_not_lt room))

/-- A fresh process opens an entry below the standard descriptors. -/
theorem connect_fresh (channel : Channel) (other : channel ≠ .terminal) :
    ∃ index : Fin 8, 2 ≤ index ∧ (Channels.fresh.connect channel).1 = (index.val : Int) ∧
      (Channels.fresh.connect channel).2 index = some channel := by
  cases channel with
  | terminal => exact absurd rfl other
  | file reader => exact ⟨2, by decide, rfl, rfl⟩
  | listing position => exact ⟨2, by decide, rfl, rfl⟩
  | clock rate => exact ⟨3, by decide, rfl, rfl⟩

end

end ComputerSystems.Kernel

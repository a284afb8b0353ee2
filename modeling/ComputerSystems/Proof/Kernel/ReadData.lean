import ComputerSystems.Construction.Kernel.FileSystem

namespace ComputerSystems.Kernel
open ComputerSystems.Library

theorem FileSystem.word_lt (fs : FileSystem) (offset : Nat) : fs.word offset < 2 ^ 32 := by
  have first := (fs.byte offset).toNat_lt
  have second := (fs.byte (offset + 1)).toNat_lt
  have third := (fs.byte (offset + 2)).toNat_lt
  have fourth := (fs.byte (offset + 3)).toNat_lt
  rw [FileSystem.word]
  omega

/-- A copy of `amount` bytes from the current position of a data block. -/
def copiedState (fs : FileSystem) (dataBlock : Nat) (state : ReadState) (amount : Nat) :
    ReadState where
  count := state.count + amount
  offset := state.offset + amount
  indexInInode := state.indexInInode
  indexInDataBlock := state.indexInDataBlock + amount
  buf := fun position =>
    if state.count ≤ position ∧ position < state.count + amount then
      fs.byte (dataBlock + (state.indexInDataBlock + (position - state.count)))
    else state.buf position
  loads := (List.range amount).reverse.map (fun step =>
    Load.data (state.count + step) ((dataBlock + (state.indexInDataBlock + step)) % 2 ^ 32)) ++
      state.loads

theorem copiedState_buf_new (fs : FileSystem) (dataBlock : Nat) (state : ReadState)
    {amount step : Nat} (inside : step < amount) :
    (copiedState fs dataBlock state amount).buf (state.count + step) =
      fs.byte (dataBlock + (state.indexInDataBlock + step)) := by
  rw [← @Nat.add_sub_cancel_left state.count step]
  have range : state.count ≤ state.count + (state.count + step - state.count) ∧
      state.count + (state.count + step - state.count) < state.count + amount := by omega
  refine (if_pos range).trans ?_
  rw [Nat.add_sub_cancel_left, Nat.add_sub_cancel_left]

theorem copiedState_buf_old (fs : FileSystem) (dataBlock : Nat) (state : ReadState)
    {amount position : Nat}
    (outside : position < state.count ∨ state.count + amount ≤ position) :
    (copiedState fs dataBlock state amount).buf position = state.buf position :=
  if_neg (by omega)

theorem copiedState_zero (fs : FileSystem) (dataBlock : Nat) (state : ReadState) :
    copiedState fs dataBlock state 0 = state := by
  have outside (position : Nat) :
      ¬ (state.count ≤ position ∧ position < state.count) := by omega
  simp only [copiedState, Nat.add_zero, outside, if_false, List.range_zero, List.reverse_nil,
    List.map_nil, List.nil_append]

/-- One more round of the inner loop copies one more byte. -/
theorem copyByte_copiedState (fs : FileSystem) (dataBlock : Nat) (state : ReadState)
    (amount : Nat) :
    copyByte fs dataBlock (copiedState fs dataBlock state amount) =
      copiedState fs dataBlock state (amount + 1) := by
  have bytes : Function.update (copiedState fs dataBlock state amount).buf
      (state.count + amount) (fs.byte (dataBlock + (state.indexInDataBlock + amount))) =
      (copiedState fs dataBlock state (amount + 1)).buf := by
    funext position
    by_cases same : position = state.count + amount
    · subst position
      simp [copiedState]
    · have within : state.count ≤ position ∧ position < state.count + amount ↔
          state.count ≤ position ∧ position < state.count + (amount + 1) := by omega
      simp only [Function.update_of_ne same, copiedState, within]
  simp only [copyByte, copiedState, ReadState.mk.injEq] at bytes ⊢
  refine ⟨by omega, by omega, trivial, by omega, bytes, ?_⟩
  rw [List.range_succ, List.reverse_append]
  rfl

theorem copyGuard_true (fs : FileSystem) (inode length : Nat) (state : ReadState) :
    copyGuard fs inode length state = true ↔ state.count < length ∧
      state.indexInDataBlock < 4096 ∧ state.offset < fs.inodeLength inode := by
  simp [copyGuard, and_assoc]

/-- The inner loop stops at the first of its three bounds. -/
def blockAmount (length fileLength : Nat) (state : ReadState) : Nat :=
  min (numBytesInFourKb - state.indexInDataBlock)
    (min (length - state.count) (fileLength - state.offset))

/-- The inner loop copies exactly the bytes that all three bounds allow. -/
theorem copyLoop_eq (fs : FileSystem) (inode length dataBlock : Nat) (state : ReadState)
    (inside : state.indexInDataBlock ≤ numBytesInFourKb) :
    whileLoop (copyGuard fs inode length) (copyByte fs dataBlock) numBytesInFourKb state =
      copiedState fs dataBlock state (blockAmount length (fs.inodeLength inode) state) := by
  let total := blockAmount length (fs.inodeLength inode) state
  have finished := whileLoop_rule (copyGuard fs inode length) (copyByte fs dataBlock)
    (fun current => ∃ amount ≤ total, current = copiedState fs dataBlock state amount)
    (fun current => numBytesInFourKb - current.indexInDataBlock)
    (by
      rintro current ⟨amount, within, rfl⟩ running
      simp only [copyGuard_true, copiedState] at running
      refine ⟨⟨amount + 1, ?_, copyByte_copiedState fs dataBlock state amount⟩, ?_⟩
      · simp only [total, blockAmount, numBytesInFourKb] at within ⊢
        omega
      · simp only [copyByte, copiedState, numBytesInFourKb]
        omega)
    numBytesInFourKb state ⟨0, Nat.zero_le _, (copiedState_zero fs dataBlock state).symm⟩
    (Nat.sub_le _ _)
  obtain ⟨⟨amount, within, reached⟩, stopped⟩ := finished
  rw [reached] at stopped ⊢
  simp only [← Bool.not_eq_true, copyGuard_true, copiedState] at stopped
  have exact_amount : amount = total := by
    simp only [total, blockAmount, numBytesInFourKb] at inside within ⊢
    omega
  rw [exact_amount]

/-- A copy adds one data load for each byte. -/
theorem mem_copiedState_loads (fs : FileSystem) (dataBlock : Nat) (state : ReadState)
    (amount : Nat) (load : Load) :
    load ∈ (copiedState fs dataBlock state amount).loads ↔
      (∃ step < amount, load = .data (state.count + step)
        ((dataBlock + (state.indexInDataBlock + step)) % 2 ^ 32)) ∨ load ∈ state.loads := by
  simp only [copiedState, List.mem_append, List.mem_map, List.mem_reverse, List.mem_range]
  constructor
  · rintro (⟨step, bound, rfl⟩ | old)
    · exact .inl ⟨step, bound, rfl⟩
    · exact .inr old
  · rintro (⟨step, bound, rfl⟩ | old)
    · exact .inl ⟨step, bound, rfl⟩
    · exact .inr old

/-- The numbers at the indices from `first` through `last` all pass the check of the code. -/
def BlocksPass (fs : FileSystem) (inode first last : Nat) : Prop :=
  ∀ index, first ≤ index → index ≤ last → fs.dataBlockNum inode index < int32 fs.dataCount

/-- The request stops at the end of the file. -/
def requested (fs : FileSystem) (inode offset length : Nat) : Nat :=
  min length (fs.inodeLength inode - offset)

/-- The last index that a request of `amount` bytes consults. -/
def lastIndex (offset amount : Nat) : Nat := (offset + (amount - 1)) / 4096

/-- The image offset of the byte at one position of the request. -/
def sourceOffset (fs : FileSystem) (inode offset position : Nat) : Nat :=
  fs.dataBlock (fs.dataBlockNum inode ((offset + position) / 4096)) + (offset + position) % 4096

/-- The effect of `read_data` on an inode in range and an offset inside its file. -/
structure ReadSpec (fs : FileSystem) (inode offset length : Nat) (buf : Nat → UInt8)
    (outcome : ReadOutcome) : Prop where
  passed : BlocksPass fs inode (offset / 4096)
      (lastIndex offset (requested fs inode offset length)) →
    outcome.result = int32 (requested fs inode offset length)
  failed : ¬ BlocksPass fs inode (offset / 4096)
      (lastIndex offset (requested fs inode offset length)) → outcome.result = -1
  bytes : ∀ position < requested fs inode offset length,
    BlocksPass fs inode (offset / 4096) ((offset + position) / 4096) →
      outcome.buf position = fs.byte (sourceOffset fs inode offset position)
  rest : ∀ position, requested fs inode offset length ≤ position →
    outcome.buf position = buf position
  entries : ∀ index place, .entry index place ∈ outcome.loads ↔
    offset / 4096 ≤ index ∧ index ≤ lastIndex offset (requested fs inode offset length) ∧
      (∀ earlier, offset / 4096 ≤ earlier → earlier < index →
        fs.dataBlockNum inode earlier < int32 fs.dataCount) ∧
      place = FileSystem.entryOffset inode index
  data : ∀ position place, .data position place ∈ outcome.loads ↔
    position < requested fs inode offset length ∧
      BlocksPass fs inode (offset / 4096) ((offset + position) / 4096) ∧
      place = sourceOffset fs inode offset position % 2 ^ 32
  fields : ∀ place, .field place ∈ outcome.loads →
    place = 4 ∨ place = 8 ∨ place = FileSystem.inodeBlock inode

/-- The outer loop keeps these facts at the start of each round. -/
structure ReadProgress (fs : FileSystem) (inode offset length : Nat) (buf : Nat → UInt8)
    (state : ReadState) : Prop where
  position : state.offset = offset + state.count
  block : state.indexInInode = state.offset / 4096
  within : state.indexInDataBlock = state.offset % 4096
  boundary : state.count = 0 ∨ state.offset = 4096 * state.indexInInode
  unfinished : state.count < requested fs inode offset length ∨
    state.count = 0 ∧ requested fs inode offset length = 0
  passed : ∀ index, offset / 4096 ≤ index → index < state.indexInInode →
    fs.dataBlockNum inode index < int32 fs.dataCount
  bytes : ∀ position < state.count,
    state.buf position = fs.byte (sourceOffset fs inode offset position)
  rest : ∀ position, state.count ≤ position → state.buf position = buf position
  entries : ∀ index place, .entry index place ∈ state.loads ↔
    offset / 4096 ≤ index ∧ index < state.indexInInode ∧
      place = FileSystem.entryOffset inode index
  data : ∀ position place, .data position place ∈ state.loads ↔
    position < state.count ∧ place = sourceOffset fs inode offset position % 2 ^ 32
  fields : ∀ place, .field place ∈ state.loads →
    place = 4 ∨ place = 8 ∨ place = FileSystem.inodeBlock inode

section Rounds

variable {fs : FileSystem} {inode offset length : Nat} {buf : Nat → UInt8} {state : ReadState}

/-- The round has logged its table entry and copies from this state. -/
def lookedState (inode : Nat) (state : ReadState) : ReadState :=
  { state with
    loads := .entry state.indexInInode (FileSystem.entryOffset inode state.indexInInode) ::
      state.loads }

/-- The amount of one round in terms of the whole request. -/
theorem ReadProgress.amount (progress : ReadProgress fs inode offset length buf state) :
    blockAmount length (fs.inodeLength inode) (lookedState inode state) =
      min (4096 - state.offset % 4096) (requested fs inode offset length - state.count) := by
  have rest : min (length - state.count) (fs.inodeLength inode - state.offset) =
      requested fs inode offset length - state.count := by
    rw [progress.position, requested, Nat.sub_add_eq, Nat.sub_min_sub_right]
  rw [blockAmount]
  dsimp only [lookedState, numBytesInFourKb]
  rw [rest, progress.within]

/-- The index of a round lies in the range of the request. -/
theorem ReadProgress.block_range (progress : ReadProgress fs inode offset length buf state) :
    offset / 4096 ≤ state.indexInInode ∧
      state.indexInInode ≤ lastIndex offset (requested fs inode offset length) := by
  have place := progress.position
  have block := progress.block
  have unfinished := progress.unfinished
  rw [block, place]
  constructor
  · exact Nat.div_le_div_right (by omega)
  · exact Nat.div_le_div_right (by omega)

/-- The copied positions lie in earlier blocks. -/
theorem ReadProgress.copied_block (progress : ReadProgress fs inode offset length buf state)
    {position : Nat} (copied : position < state.count) :
    (offset + position) / 4096 < state.indexInInode := by
  have place := progress.position
  rcases progress.boundary with fresh | boundary
  · omega
  · omega

/-- The uncopied positions lie in the block of this round or after it. -/
theorem ReadProgress.pending_block (progress : ReadProgress fs inode offset length buf state)
    {position : Nat} (pending : state.count ≤ position) :
    state.indexInInode ≤ (offset + position) / 4096 := by
  rw [progress.block, progress.position]
  exact Nat.div_le_div_right (by omega)

/-- Each step of a round reads the byte at its own position of the request. -/
theorem ReadProgress.source_step (progress : ReadProgress fs inode offset length buf state)
    {step : Nat} (inside : state.offset % 4096 + step < 4096) :
    sourceOffset fs inode offset (state.count + step) =
      fs.dataBlock (fs.dataBlockNum inode state.indexInInode) +
        (state.indexInDataBlock + step) := by
  have place := progress.position
  have block : (offset + (state.count + step)) / 4096 = state.indexInInode := by
    rw [progress.block]
    omega
  have within : (offset + (state.count + step)) % 4096 = state.indexInDataBlock + step := by
    rw [progress.within]
    omega
  rw [sourceOffset, block, within]

/-- A failed check ends the call with the bytes of the earlier blocks. -/
theorem ReadProgress.rejected (progress : ReadProgress fs inode offset length buf state)
    (rejected : int32 fs.dataCount ≤ fs.dataBlockNum inode state.indexInInode) :
    ReadSpec fs inode offset length buf
      ⟨-1, (lookedState inode state).buf, (lookedState inode state).loads⟩ := by
  have range := progress.block_range
  have stops {last : Nat} (reaches : state.indexInInode ≤ last) :
      ¬ BlocksPass fs inode (offset / 4096) last := by
    intro pass
    have accepted := pass state.indexInInode range.1 reaches
    omega
  have unfinished := progress.unfinished
  refine
    { passed := fun pass => absurd pass (stops range.2)
      failed := fun _ => rfl
      bytes := ?bytes
      rest := fun position outside => progress.rest position (by omega)
      entries := ?entries
      data := ?data
      fields := ?fields }
  case bytes =>
    intro position inside pass
    by_cases copied : position < state.count
    · exact progress.bytes position copied
    · exact absurd pass (stops (progress.pending_block (by omega)))
  case entries =>
    intro index place
    simp only [lookedState, List.mem_cons, Load.entry.injEq, progress.entries]
    constructor
    · rintro (⟨rfl, rfl⟩ | ⟨lower, upper, rfl⟩)
      · exact ⟨range.1, range.2, progress.passed, rfl⟩
      · exact ⟨lower, by omega, fun earlier first before =>
          progress.passed earlier first (by omega), rfl⟩
    · rintro ⟨lower, upper, pass, rfl⟩
      by_cases same : index = state.indexInInode
      · exact .inl ⟨same, by rw [same]⟩
      · refine .inr ⟨lower, ?_, rfl⟩
        by_contra beyond
        have accepted := pass state.indexInInode range.1 (by omega)
        omega
  case data =>
    intro position place
    simp only [lookedState, List.mem_cons, reduceCtorEq, false_or, progress.data]
    constructor
    · rintro ⟨copied, rfl⟩
      have block := progress.copied_block copied
      exact ⟨by omega, fun index lower upper => progress.passed index lower (by omega), rfl⟩
    · rintro ⟨inside, pass, rfl⟩
      refine ⟨?_, rfl⟩
      by_contra pending
      exact stops (progress.pending_block (by omega)) pass
  case fields =>
    intro place member
    simp only [lookedState, List.mem_cons, reduceCtorEq, false_or] at member
    exact progress.fields place member

/-- The state after the copy of one round. -/
def roundState (fs : FileSystem) (inode length : Nat) (state : ReadState) : ReadState :=
  copiedState fs (fs.dataBlock (fs.dataBlockNum inode state.indexInInode))
    (lookedState inode state)
    (blockAmount length (fs.inodeLength inode) (lookedState inode state))

theorem roundState_count (fs : FileSystem) (inode length : Nat) (state : ReadState) :
    (roundState fs inode length state).count = state.count +
      blockAmount length (fs.inodeLength inode) (lookedState inode state) := rfl

theorem roundState_offset (fs : FileSystem) (inode length : Nat) (state : ReadState) :
    (roundState fs inode length state).offset = state.offset +
      blockAmount length (fs.inodeLength inode) (lookedState inode state) := rfl

theorem ReadProgress.round_bytes (progress : ReadProgress fs inode offset length buf state)
    {position : Nat} (copied : position < (roundState fs inode length state).count) :
    (roundState fs inode length state).buf position =
      fs.byte (sourceOffset fs inode offset position) := by
  have amount := progress.amount
  rw [roundState_count] at copied
  by_cases old : position < state.count
  · rw [roundState, copiedState_buf_old fs _ (lookedState inode state) (.inl old)]
    exact progress.bytes position old
  · obtain ⟨step, rfl⟩ := Nat.exists_eq_add_of_le (Nat.le_of_not_lt old)
    rw [progress.source_step (by omega)]
    exact copiedState_buf_new fs _ (lookedState inode state) (by omega)

theorem ReadProgress.round_rest (progress : ReadProgress fs inode offset length buf state)
    {position : Nat} (outside : (roundState fs inode length state).count ≤ position) :
    (roundState fs inode length state).buf position = buf position := by
  rw [roundState_count] at outside
  rw [roundState, copiedState_buf_old fs _ (lookedState inode state) (.inr outside)]
  exact progress.rest position (by omega)

theorem ReadProgress.round_data (progress : ReadProgress fs inode offset length buf state)
    (position place : Nat) :
    .data position place ∈ (roundState fs inode length state).loads ↔
      position < (roundState fs inode length state).count ∧
        place = sourceOffset fs inode offset position % 2 ^ 32 := by
  have amount := progress.amount
  have old_data (position place : Nat) :
      .data position place ∈ (lookedState inode state).loads ↔
        position < state.count ∧ place = sourceOffset fs inode offset position % 2 ^ 32 := by
    simp only [lookedState, List.mem_cons, reduceCtorEq, false_or, progress.data]
  rw [roundState_count, roundState, mem_copiedState_loads, old_data]
  constructor
  · rintro (⟨step, bound, same⟩ | ⟨copied, rfl⟩)
    · obtain ⟨rfl, rfl⟩ := Load.data.inj same
      exact ⟨Nat.add_lt_add_left bound _,
        congrArg (· % 2 ^ 32) (progress.source_step (by omega)).symm⟩
    · exact ⟨by omega, rfl⟩
  · rintro ⟨copied, rfl⟩
    by_cases old : position < state.count
    · exact .inr ⟨old, rfl⟩
    · obtain ⟨step, rfl⟩ := Nat.exists_eq_add_of_le (Nat.le_of_not_lt old)
      refine .inl ⟨step, by omega, ?_⟩
      rw [progress.source_step (by omega)]
      rfl

theorem ReadProgress.round_entries (progress : ReadProgress fs inode offset length buf state)
    (index place : Nat) :
    .entry index place ∈ (roundState fs inode length state).loads ↔
      offset / 4096 ≤ index ∧ index ≤ state.indexInInode ∧
        place = FileSystem.entryOffset inode index := by
  have range := progress.block_range
  rw [roundState, mem_copiedState_loads]
  simp only [lookedState, List.mem_cons, reduceCtorEq, and_false, exists_false, false_or,
    progress.entries, Load.entry.injEq]
  constructor
  · rintro (⟨rfl, rfl⟩ | ⟨lower, upper, rfl⟩)
    · exact ⟨range.1, Nat.le_refl _, rfl⟩
    · exact ⟨lower, by omega, rfl⟩
  · rintro ⟨lower, upper, rfl⟩
    by_cases same : index = state.indexInInode
    · exact .inl ⟨same, by rw [same]⟩
    · exact .inr ⟨lower, by omega, rfl⟩

theorem ReadProgress.round_fields (progress : ReadProgress fs inode offset length buf state)
    {place : Nat} (member : .field place ∈ (roundState fs inode length state).loads) :
    place = 4 ∨ place = 8 ∨ place = FileSystem.inodeBlock inode := by
  rw [roundState, mem_copiedState_loads] at member
  simp only [lookedState, List.mem_cons, reduceCtorEq, and_false, exists_false, false_or] at member
  exact progress.fields place member

/-- The numbers through this round pass once its own number passes. -/
theorem ReadProgress.round_passed (progress : ReadProgress fs inode offset length buf state)
    (accepted : fs.dataBlockNum inode state.indexInInode < int32 fs.dataCount) :
    BlocksPass fs inode (offset / 4096) state.indexInInode := by
  intro index lower upper
  by_cases same : index = state.indexInInode
  · rw [same]
    exact accepted
  · exact progress.passed index lower (by omega)

/-- A round that completes the request ends the call with all its bytes. -/
theorem ReadProgress.completed (progress : ReadProgress fs inode offset length buf state)
    (accepted : fs.dataBlockNum inode state.indexInInode < int32 fs.dataCount)
    (complete : (roundState fs inode length state).count = requested fs inode offset length) :
    ReadSpec fs inode offset length buf
      ⟨int32 (roundState fs inode length state).count, (roundState fs inode length state).buf,
        (roundState fs inode length state).loads⟩ := by
  have amount := progress.amount
  have place := progress.position
  have block := progress.block
  have unfinished := progress.unfinished
  have range := progress.block_range
  have final : lastIndex offset (requested fs inode offset length) = state.indexInInode := by
    rw [roundState_count] at complete
    rw [lastIndex, block]
    omega
  have pass := progress.round_passed accepted
  refine
    { passed := fun _ => by rw [complete]
      failed := fun refused => absurd (final ▸ pass) refused
      bytes := fun position inside _ => progress.round_bytes (by omega)
      rest := fun position outside => progress.round_rest (by omega)
      entries := ?entries
      data := ?data
      fields := fun place member => progress.round_fields member }
  case entries =>
    intro index entry
    rw [progress.round_entries, final]
    constructor
    · rintro ⟨lower, upper, rfl⟩
      exact ⟨lower, upper, fun earlier first before => pass earlier first (by omega), rfl⟩
    · rintro ⟨lower, upper, -, rfl⟩
      exact ⟨lower, upper, rfl⟩
  case data =>
    intro position entry
    rw [progress.round_data, complete]
    constructor
    · rintro ⟨inside, rfl⟩
      refine ⟨inside, fun index lower upper => pass index lower ?_, rfl⟩
      rw [← final, lastIndex]
      exact upper.trans (Nat.div_le_div_right (by omega))
    · rintro ⟨inside, -, rfl⟩
      exact ⟨inside, rfl⟩

/-- A round that does not complete the request leaves the next block at its start. -/
theorem ReadProgress.advanced (progress : ReadProgress fs inode offset length buf state)
    (accepted : fs.dataBlockNum inode state.indexInInode < int32 fs.dataCount)
    (open_request : (roundState fs inode length state).count <
      requested fs inode offset length) :
    ReadProgress fs inode offset length buf
      { roundState fs inode length state with
        indexInDataBlock := 0
        indexInInode := (roundState fs inode length state).indexInInode + 1 } := by
  have amount := progress.amount
  have place := progress.position
  have block := progress.block
  have whole : blockAmount length (fs.inodeLength inode) (lookedState inode state) =
      4096 - state.offset % 4096 := by
    rw [roundState_count] at open_request
    omega
  have pass := progress.round_passed accepted
  refine
    { position := ?position
      block := ?block
      within := ?within
      boundary := .inr ?boundary
      unfinished := .inl open_request
      passed := fun index lower upper => pass index lower (Nat.le_of_lt_succ upper)
      bytes := fun position inside => progress.round_bytes inside
      rest := fun position outside => progress.round_rest outside
      entries := ?entries
      data := progress.round_data
      fields := fun place member => progress.round_fields member }
  case position =>
    rw [roundState_offset, roundState_count]
    omega
  case block =>
    rw [roundState_offset]
    change state.indexInInode + 1 = _
    omega
  case within =>
    rw [roundState_offset]
    change 0 = _
    omega
  case boundary =>
    rw [roundState_offset]
    change _ = 4096 * (state.indexInInode + 1)
    omega
  case entries =>
    intro index entry
    have next : (roundState fs inode length state).indexInInode = state.indexInInode := rfl
    rw [progress.round_entries, next, Nat.lt_succ_iff]

/-- One round in terms of its closed form. -/
theorem readBlock_eq (inside : state.indexInDataBlock ≤ 4096) :
    readBlock fs inode length state =
      if int32 fs.dataCount ≤ fs.dataBlockNum inode state.indexInInode then
        .inl ⟨-1, (lookedState inode state).buf, (lookedState inode state).loads⟩
      else if length ≤ (roundState fs inode length state).count ∨
          fs.inodeLength inode ≤ (roundState fs inode length state).offset then
        .inl ⟨int32 (roundState fs inode length state).count,
          (roundState fs inode length state).buf, (roundState fs inode length state).loads⟩
      else
        .inr { roundState fs inode length state with
          indexInDataBlock := 0
          indexInInode := (roundState fs inode length state).indexInInode + 1 } := by
  have copied := copyLoop_eq fs inode length
    (fs.dataBlock (fs.dataBlockNum inode state.indexInInode)) (lookedState inode state) inside
  rw [roundState, ← copied]
  rfl

/-- The exit test of the outer loop means that the request is complete. -/
theorem ReadProgress.exit_iff (progress : ReadProgress fs inode offset length buf state) :
    (length ≤ (roundState fs inode length state).count ∨
      fs.inodeLength inode ≤ (roundState fs inode length state).offset) ↔
      (roundState fs inode length state).count = requested fs inode offset length := by
  have amount := progress.amount
  have place := progress.position
  have unfinished := progress.unfinished
  rw [roundState_count, roundState_offset]
  rw [requested] at amount unfinished ⊢
  omega

end Rounds

/-- The first round starts from this progress. -/
theorem readProgress_start (fs : FileSystem) (inode offset length : Nat) (buf : Nat → UInt8)
    (loads : List Load)
    (header : ∀ load ∈ loads, load = .field 4 ∨ load = .field 8 ∨
      load = .field (FileSystem.inodeBlock inode)) :
    ReadProgress fs inode offset length buf
      ⟨0, offset, offset / 4096, offset % 4096, buf, loads⟩ where
  position := rfl
  block := rfl
  within := rfl
  boundary := .inl rfl
  unfinished := by
    change 0 < _ ∨ 0 = 0 ∧ _
    omega
  passed := fun index lower upper => absurd lower (Nat.not_le_of_lt upper)
  bytes := fun position inside => absurd inside (Nat.not_lt_zero _)
  rest := fun position _ => rfl
  entries := fun index place => by
    constructor
    · intro member
      have impossible := header _ member
      simp at impossible
    · rintro ⟨lower, upper, -⟩
      exact absurd lower (Nat.not_le_of_lt upper)
  data := fun position place => by
    constructor
    · intro member
      have impossible := header _ member
      simp at impossible
    · rintro ⟨inside, -⟩
      exact absurd inside (Nat.not_lt_zero _)
  fields := fun place member => by
    simpa using header _ member

/-- An inode out of range fails after one field. -/
theorem readData_outOfRange (fs : FileSystem) (inode offset length : Word) (buf : Nat → UInt8)
    (outOfRange : fs.inodeCount ≤ inode.toNat) :
    readData fs inode offset buf length = some ⟨-1, buf, [.field 4]⟩ :=
  if_pos outOfRange

/-- An offset at or after the end of the file reads nothing. -/
theorem readData_pastEnd (fs : FileSystem) (inode offset length : Word) (buf : Nat → UInt8)
    (inRange : inode.toNat < fs.inodeCount) (pastEnd : fs.inodeLength inode.toNat ≤ offset.toNat) :
    readData fs inode offset buf length =
      some ⟨0, buf, [.field (FileSystem.inodeBlock inode.toNat), .field 4]⟩ :=
  (if_neg (Nat.not_le_of_lt inRange)).trans (if_pos pastEnd)

/-- Every call on an inode in range and an offset inside its file returns to the specification. -/
theorem readData_spec (fs : FileSystem) (inode offset length : Word) (buf : Nat → UInt8)
    (inRange : inode.toNat < fs.inodeCount) (inFile : offset.toNat < fs.inodeLength inode.toNat) :
    ∃ outcome, readData fs inode offset buf length = some outcome ∧
      ReadSpec fs inode.toNat offset.toNat length.toNat buf outcome := by
  unfold readData
  rw [if_neg (Nat.not_le_of_lt inRange), if_neg (Nat.not_le_of_lt inFile)]
  let last := lastIndex offset.toNat (requested fs inode.toNat offset.toNat length.toNat)
  apply returnLoop_rule
    (ReadProgress fs inode.toNat offset.toNat length.toNat buf)
    (fun state => last + 1 - state.indexInInode)
  case returned =>
    intro state outcome progress round
    have small : state.indexInDataBlock ≤ 4096 := by
      rw [progress.within]
      omega
    rw [readBlock_eq small] at round
    split at round
    next rejected =>
      obtain rfl := Sum.inl.inj round
      exact progress.rejected rejected
    next accepted =>
      split at round
      next complete =>
        obtain rfl := Sum.inl.inj round
        exact progress.completed (Int.not_le.mp accepted) (progress.exit_iff.mp complete)
      next => cases round
  case continued =>
    intro state next progress round
    have small : state.indexInDataBlock ≤ 4096 := by
      rw [progress.within]
      omega
    rw [readBlock_eq small] at round
    split at round
    next => cases round
    next accepted =>
      split at round
      next => cases round
      next incomplete =>
        obtain rfl := Sum.inr.inj round
        have range := progress.block_range
        have amount := progress.amount
        have unfinished := progress.unfinished
        have bounded : (roundState fs inode.toNat length.toNat state).count ≤
            requested fs inode.toNat offset.toNat length.toNat := by
          rw [roundState_count]
          omega
        refine ⟨progress.advanced (Int.not_le.mp accepted) ?_, ?_⟩
        · exact Nat.lt_of_le_of_ne bounded fun complete =>
            incomplete (progress.exit_iff.mpr complete)
        · change last + 1 - (state.indexInInode + 1) < last + 1 - state.indexInInode
          omega
  case initial =>
    exact readProgress_start fs _ _ _ buf _ (by simp)
  case enough =>
    have small := fs.word_lt (FileSystem.inodeBlock inode.toNat)
    rw [← FileSystem.inodeLength] at small
    simp only [last, lastIndex, requested, numBytesInFourKb]
    omega


end ComputerSystems.Kernel

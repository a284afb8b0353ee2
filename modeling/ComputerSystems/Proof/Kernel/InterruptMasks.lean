import ComputerSystems.Construction.Kernel.I8259
import ComputerSystems.Library.Ia32

namespace ComputerSystems.Kernel

/-- The lines from eight on are those of the slave. -/
def Pic.Unmasked (pic : Pic) (line : Nat) : Prop :=
  if line < 8 then pic.masterInterruptMask.getLsbD line = false
  else pic.slaveInterruptMask.getLsbD (line - 8) = false

/-- The last byte written to a port. -/
def Pic.lastWritten (pic : Pic) (port : Nat) : Option (BitVec 8) :=
  (pic.written.find? fun write => write.1 == port).map Prod.snd

/-- The last call that names a line. -/
def lastCall (line : Nat) (calls : List IrqCall) : Option IrqCall :=
  (calls.filter fun call => call.irqNum.toNat == line).getLast?

section
variable {line other : Nat} (mask : BitVec 8)

/-- Both operations set one bit of the mask and keep the others. -/
theorem setBit_getLsbD (bit : Bool) (inside : other < 8) :
    ((Library.Ia32.setBit line bit (mask.setWidth 32)).setWidth 8).getLsbD other =
      if line = other then bit else mask.getLsbD other := by
  have wide : other < 32 := by omega
  rw [BitVec.getLsbD_setWidth, Library.Ia32.getLsbD_setBit wide, BitVec.getLsbD_setWidth,
    decide_eq_true inside, decide_eq_true wide, Bool.true_and, Bool.true_and]

theorem unmaskLine_getLsbD (inside : other < 8) :
    (unmaskLine line mask).getLsbD other = if line = other then false else mask.getLsbD other :=
  setBit_getLsbD mask false inside

theorem maskLine_getLsbD (inside : other < 8) :
    (maskLine line mask).getLsbD other = if line = other then true else mask.getLsbD other :=
  setBit_getLsbD mask true inside

/-- The slave is masked as a whole when each of its lines is. -/
theorem mask_eq_iff : mask = 0xFF ↔ ∀ line < 8, mask.getLsbD line = true := by
  have ones : (0xFF : BitVec 8) = BitVec.allOnes 8 := rfl
  rw [ones]
  constructor
  · rintro rfl line inside
    rw [BitVec.getLsbD_allOnes, decide_eq_true inside]
  · intro all
    apply BitVec.eq_of_getLsbD_eq
    intro line inside
    rw [all line inside, BitVec.getLsbD_allOnes, decide_eq_true inside]

end

section
variable {pic : Pic} {line : Nat}

theorem Pic.unmasked_master (inside : line < 8) :
    pic.Unmasked line ↔ pic.masterInterruptMask.getLsbD line = false := by
  rw [Unmasked, if_pos inside]

theorem Pic.unmasked_slave (beyond : 8 ≤ line) :
    pic.Unmasked line ↔ pic.slaveInterruptMask.getLsbD (line - 8) = false := by
  rw [Unmasked, if_neg (Nat.not_lt.2 beyond)]

/-- The master line of the slave is unmasked when a line of the slave is. -/
def Pic.Cascaded (pic : Pic) : Prop :=
  pic.Unmasked icw3Slave ↔ ∃ line, 8 ≤ line ∧ line < 16 ∧ pic.Unmasked line

/-- What the mask bit of a call does to the lines and to the ports. -/
structure Switched (line : Nat) (bit : Bool) (before after : Pic) : Prop where
  own : after.Unmasked line ↔ bit = false
  others : ∀ other < 16, other ≠ line → other ≠ icw3Slave →
    (after.Unmasked other ↔ before.Unmasked other)
  cascaded : before.Cascaded → after.Cascaded
  master : line < 8 ∨ before.lastWritten (master8259Port + 1) = some before.masterInterruptMask →
    after.lastWritten (master8259Port + 1) = some after.masterInterruptMask
  slave : 8 ≤ line ∨ before.lastWritten (slave8259Port + 1) = some before.slaveInterruptMask →
    after.lastWritten (slave8259Port + 1) = some after.slaveInterruptMask

theorem lastWritten_outb (data : BitVec 8) (port other : Nat) :
    (pic.outb data port).lastWritten other =
      if port = other then some data else pic.lastWritten other := by
  unfold Pic.lastWritten Pic.outb
  by_cases same : port = other
  · simp [same]
  · simp [same]

@[simp]
theorem writeMaster_master :
    pic.writeMaster.lastWritten (master8259Port + 1) = some pic.masterInterruptMask := by
  rw [Pic.writeMaster, lastWritten_outb, if_pos rfl]

@[simp]
theorem writeMaster_slave : pic.writeMaster.lastWritten (slave8259Port + 1) =
    pic.lastWritten (slave8259Port + 1) := by
  rw [Pic.writeMaster, lastWritten_outb, if_neg (by decide)]

@[simp]
theorem writeSlave_slave :
    pic.writeSlave.lastWritten (slave8259Port + 1) = some pic.slaveInterruptMask := by
  rw [Pic.writeSlave, lastWritten_outb, if_pos rfl]

@[simp]
theorem writeSlave_master : pic.writeSlave.lastWritten (master8259Port + 1) =
    pic.lastWritten (master8259Port + 1) := by
  rw [Pic.writeSlave, lastWritten_outb, if_neg (by decide)]

/-- A write of the master mask leaves the port of the slave alone. -/
theorem switched_master {bit : Bool} {mask : BitVec 8} (inside : line < 8)
    (notSlave : line ≠ icw3Slave)
    (bits : ∀ other < 8, mask.getLsbD other =
      if line = other then bit else pic.masterInterruptMask.getLsbD other) :
    Switched line bit pic (Pic.writeMaster { pic with masterInterruptMask := mask }) := by
  have unmasked (other : Nat) (low : other < 8) (different : line ≠ other) :
      (Pic.writeMaster { pic with masterInterruptMask := mask }).Unmasked other ↔
        pic.Unmasked other := by
    rw [Pic.unmasked_master low, Pic.unmasked_master low]
    change mask.getLsbD other = false ↔ _
    rw [bits other low, if_neg different]
  have slave (other : Nat) (high : 8 ≤ other) :
      (Pic.writeMaster { pic with masterInterruptMask := mask }).Unmasked other ↔
        pic.Unmasked other := by
    rw [Pic.unmasked_slave high, Pic.unmasked_slave high]
    rfl
  refine ⟨?_, fun other _ different _ => ?_, fun cascaded => ?_, fun _ => ?_, fun named => ?_⟩
  · rw [Pic.unmasked_master inside]
    change mask.getLsbD line = false ↔ _
    rw [bits line inside, if_pos rfl]
  · rcases Nat.lt_or_ge other 8 with low | high
    · exact unmasked other low different.symm
    · exact slave other high
  · unfold Pic.Cascaded at cascaded ⊢
    rw [unmasked icw3Slave (by decide) notSlave, cascaded]
    apply exists_congr
    intro other
    apply and_congr_right
    intro high
    rw [slave other high]
  · exact writeMaster_master
  · rw [writeMaster_slave]
    exact named.resolve_left (by omega)

/-- A write of the slave mask goes before the write of the cascade line. -/
theorem switched_slave {bit : Bool} {next : Pic} (low : 8 ≤ line) (high : line < 16)
    (slaveBits : ∀ other < 8, next.slaveInterruptMask.getLsbD other =
      if line - 8 = other then bit else pic.slaveInterruptMask.getLsbD other)
    (masterBits : ∀ other < 8, other ≠ icw3Slave →
      next.masterInterruptMask.getLsbD other = pic.masterInterruptMask.getLsbD other)
    (cascaded : pic.Cascaded → next.Cascaded)
    (slavePort : next.lastWritten (slave8259Port + 1) = some next.slaveInterruptMask)
    (masterPort : pic.lastWritten (master8259Port + 1) = some pic.masterInterruptMask →
      next.lastWritten (master8259Port + 1) = some next.masterInterruptMask) :
    Switched line bit pic next := by
  refine ⟨?_, fun other inside different notCascade => ?_, cascaded, fun named => ?_,
    fun _ => slavePort⟩
  · rw [Pic.unmasked_slave low, slaveBits (line - 8) (by omega), if_pos rfl]
  · rcases Nat.lt_or_ge other 8 with master | slave
    · rw [Pic.unmasked_master master, Pic.unmasked_master master,
        masterBits other master notCascade]
    · rw [Pic.unmasked_slave slave, Pic.unmasked_slave slave, slaveBits (other - 8) (by omega),
        if_neg (by omega)]
  · exact masterPort (named.resolve_left (by omega))

theorem unmasked_cascade (pic : Pic) :
    pic.Unmasked icw3Slave ↔ pic.masterInterruptMask.getLsbD 2 = false :=
  Pic.unmasked_master (by decide)

/-- Some line of the slave is unmasked unless its mask is full. -/
theorem exists_unmasked_slave (pic : Pic) :
    (∃ line, 8 ≤ line ∧ line < 16 ∧ pic.Unmasked line) ↔ pic.slaveInterruptMask ≠ 0xFF := by
  rw [Ne, mask_eq_iff]
  constructor
  · rintro ⟨line, low, high, unmasked⟩ full
    rw [Pic.unmasked_slave low, full (line - 8) (by omega)] at unmasked
    exact absurd unmasked (by simp)
  · intro notFull
    push Not at notFull
    obtain ⟨line, inside, clear⟩ := notFull
    have same : line + 8 - 8 = line := by omega
    refine ⟨line + 8, by omega, by omega, ?_⟩
    rw [Pic.unmasked_slave (by omega), same]
    simpa using clear

end

section
variable (pic : Pic) (irqNum : BitVec 32)

theorem not_above (inside : irqNum.toNat < 16) : ¬ irqNum > numberIrqs := by
  rw [gt_iff_lt, BitVec.lt_def]
  change ¬ 15 < irqNum.toNat
  omega

theorem below_eight : irqNum < 8 ↔ irqNum.toNat < 8 := by
  rw [BitVec.lt_def]
  rfl

theorem sub_eight (low : 8 ≤ irqNum.toNat) : (irqNum - 8).toNat = irqNum.toNat - 8 := by
  rw [BitVec.toNat_sub_of_le]
  · rfl
  · rw [BitVec.le_def]
    exact low

theorem enableIrq_switched (inside : irqNum.toNat < 16) (notCascade : irqNum.toNat ≠ icw3Slave) :
    Switched irqNum.toNat false pic (enableIrq irqNum pic) := by
  unfold enableIrq
  rw [if_neg (not_above irqNum inside)]
  by_cases master : irqNum.toNat < 8
  · rw [if_pos ((below_eight irqNum).2 master)]
    exact switched_master master notCascade fun other low => unmaskLine_getLsbD _ low
  · rw [if_neg (mt (below_eight irqNum).1 master)]
    dsimp only
    rw [sub_eight irqNum (by omega)]
    have own : (unmaskLine (irqNum.toNat - 8) pic.slaveInterruptMask).getLsbD
        (irqNum.toNat - 8) = false := by
      rw [unmaskLine_getLsbD _ (by omega), if_pos rfl]
    refine switched_slave (by omega) inside (fun other low => ?_) (fun other low different => ?_)
      (fun _ => ?_) ?_ fun _ => ?_
    · exact unmaskLine_getLsbD _ low
    · exact (unmaskLine_getLsbD _ low).trans (if_neg different.symm)
    · unfold Pic.Cascaded
      rw [exists_unmasked_slave, unmasked_cascade]
      refine iff_of_true ?_ fun full => ?_
      · change (unmaskLine _ _).getLsbD 2 = false
        rw [unmaskLine_getLsbD _ (by decide), if_pos rfl]
      · have set := (mask_eq_iff _).1 full (irqNum.toNat - 8) (by omega)
        exact Bool.false_ne_true (own.symm.trans set)
    · exact writeMaster_slave.trans writeSlave_slave
    · exact writeMaster_master

theorem disableIrq_switched (inside : irqNum.toNat < 16) (notCascade : irqNum.toNat ≠ icw3Slave) :
    Switched irqNum.toNat true pic (disableIrq irqNum pic) := by
  unfold disableIrq
  rw [if_neg (not_above irqNum inside)]
  by_cases master : irqNum.toNat < 8
  · rw [if_pos ((below_eight irqNum).2 master)]
    exact switched_master master notCascade fun other low => maskLine_getLsbD _ low
  · rw [if_neg (mt (below_eight irqNum).1 master)]
    dsimp only
    rw [sub_eight irqNum (by omega)]
    have slaveBits (other : Nat) (low : other < 8) :
        (maskLine (irqNum.toNat - 8) pic.slaveInterruptMask).getLsbD other =
          if irqNum.toNat - 8 = other then true else pic.slaveInterruptMask.getLsbD other :=
      maskLine_getLsbD _ low
    split_ifs with full
    · change maskLine (irqNum.toNat - 8) pic.slaveInterruptMask = 0xFF at full
      refine switched_slave (by omega) inside ?_ (fun other low different => ?_) (fun _ => ?_) ?_
        fun _ => ?_
      · exact slaveBits
      · exact (maskLine_getLsbD _ low).trans (if_neg different.symm)
      · unfold Pic.Cascaded
        rw [exists_unmasked_slave, unmasked_cascade]
        refine iff_of_false ?_ fun notFull => notFull full
        change ¬ (maskLine _ _).getLsbD 2 = false
        rw [maskLine_getLsbD _ (by decide), if_pos rfl]
        exact Bool.noConfusion
      · exact writeMaster_slave.trans writeSlave_slave
      · exact writeMaster_master
    · change ¬ maskLine (irqNum.toNat - 8) pic.slaveInterruptMask = 0xFF at full
      refine switched_slave (by omega) inside ?_ (fun _ _ _ => rfl) (fun cascaded => ?_) ?_
        fun written => ?_
      · exact slaveBits
      · unfold Pic.Cascaded at cascaded ⊢
        rw [exists_unmasked_slave, unmasked_cascade] at cascaded ⊢
        have notFull : pic.slaveInterruptMask ≠ 0xFF := by
          intro before
          apply full
          rw [mask_eq_iff] at before ⊢
          intro other low
          rw [slaveBits other low, before other low, ite_self]
        exact iff_of_true (cascaded.2 notFull) full
      · exact writeSlave_slave
      · exact writeSlave_master.trans written

/-- A call with a number above fifteen changes no mask and writes no port. -/
theorem irqCall_above (call : IrqCall) (above : 15 < call.irqNum.toNat) : call.run pic = pic := by
  have beyond : call.irqNum > numberIrqs := by
    rw [gt_iff_lt, BitVec.lt_def]
    exact above
  cases call with
  | enable irqNum =>
      exact if_pos beyond
  | disable irqNum =>
      exact if_pos beyond

/-- The mask bit that a call stores for its line. -/
def IrqCall.bit : IrqCall → Bool
  | .enable _ => false
  | .disable _ => true

theorem IrqCall.bit_eq_false (call : IrqCall) :
    call.bit = false ↔ call = .enable call.irqNum := by
  cases call <;> simp [IrqCall.bit, IrqCall.irqNum]

theorem irqCall_switched (call : IrqCall) (inside : call.irqNum.toNat < 16)
    (notCascade : call.irqNum.toNat ≠ icw3Slave) :
    Switched call.irqNum.toNat call.bit pic (call.run pic) := by
  cases call with
  | enable irqNum => exact enableIrq_switched pic irqNum inside notCascade
  | disable irqNum => exact disableIrq_switched pic irqNum inside notCascade

end

/-- What the masks and the ports say about the calls so far. -/
structure MasksFollow (calls : List IrqCall) (pic : Pic) : Prop where
  lines : ∀ line < 16, line ≠ icw3Slave →
    (pic.Unmasked line ↔ lastCall line calls = some (.enable (BitVec.ofNat 32 line)))
  cascaded : pic.Cascaded
  master : (∃ call ∈ calls, call.irqNum.toNat < 8) →
    pic.lastWritten (master8259Port + 1) = some pic.masterInterruptMask
  slave : (∃ call ∈ calls, 8 ≤ call.irqNum.toNat ∧ call.irqNum.toNat < 16) →
    pic.lastWritten (slave8259Port + 1) = some pic.slaveInterruptMask

/-- The masks before the first call. -/
def maskedPic (written : List (Nat × BitVec 8)) : Pic := ⟨0xFF, 0xFF, written⟩

theorem masksFollow_masked (written : List (Nat × BitVec 8)) :
    MasksFollow [] (maskedPic written) := by
  have masked (line : Nat) (inside : line < 16) : ¬ (maskedPic written).Unmasked line := by
    unfold Pic.Unmasked
    split_ifs with low
    · rw [show (maskedPic written).masterInterruptMask = 0xFF from rfl,
        (mask_eq_iff _).1 rfl line low]
      simp
    · rw [show (maskedPic written).slaveInterruptMask = 0xFF from rfl,
        (mask_eq_iff _).1 rfl (line - 8) (by omega)]
      simp
  refine ⟨fun line inside _ => ?_, ?_, fun named => ?_, fun named => ?_⟩
  · exact iff_of_false (masked line inside) (by simp [lastCall])
  · refine iff_of_false (masked icw3Slave (by decide)) ?_
    rintro ⟨line, _, high, unmasked⟩
    exact masked line high unmasked
  · simp at named
  · simp at named

theorem lastCall_append (line : Nat) (calls : List IrqCall) (call : IrqCall) :
    lastCall line (calls ++ [call]) =
      if call.irqNum.toNat = line then some call else lastCall line calls := by
  unfold lastCall
  rw [List.filter_append]
  by_cases same : call.irqNum.toNat = line
  · simp [same]
  · simp [same]

/-- A call of a line keeps the masks in step with the calls. -/
theorem masksFollow_run {calls : List IrqCall} {pic : Pic} {call : IrqCall}
    (follows : MasksFollow calls pic) (notCascade : call.irqNum ≠ 2) :
    MasksFollow (calls ++ [call]) (call.run pic) := by
  have other : call.irqNum.toNat ≠ icw3Slave := by
    intro same
    apply notCascade
    apply BitVec.eq_of_toNat_eq
    exact same
  rcases Nat.lt_or_ge 15 call.irqNum.toNat with above | inside
  · rw [irqCall_above pic call above]
    refine ⟨fun line low different => ?_, follows.cascaded, ?_, ?_⟩
    · rw [lastCall_append, if_neg (by omega)]
      exact follows.lines line low different
    · rintro ⟨named, member, low⟩
      rcases List.mem_append.1 member with earlier | last
      · exact follows.master ⟨named, earlier, low⟩
      · rw [List.mem_singleton.1 last] at low
        omega
    · rintro ⟨named, member, range⟩
      rcases List.mem_append.1 member with earlier | last
      · exact follows.slave ⟨named, earlier, range⟩
      · rw [List.mem_singleton.1 last] at range
        omega
  · have switched := irqCall_switched pic call (by omega) other
    refine ⟨fun line low different => ?_, switched.cascaded follows.cascaded, ?_, ?_⟩
    · rw [lastCall_append]
      by_cases own : call.irqNum.toNat = line
      · rw [if_pos own, Option.some_inj, ← own, BitVec.ofNat_toNat, BitVec.setWidth_eq]
        exact switched.own.trans call.bit_eq_false
      · rw [if_neg own, switched.others line low (Ne.symm own) different]
        exact follows.lines line low different
    · rintro ⟨named, member, low⟩
      apply switched.master
      rcases List.mem_append.1 member with earlier | last
      · exact Or.inr (follows.master ⟨named, earlier, low⟩)
      · rw [List.mem_singleton.1 last] at low
        exact Or.inl low
    · rintro ⟨named, member, range⟩
      apply switched.slave
      rcases List.mem_append.1 member with earlier | last
      · exact Or.inr (follows.slave ⟨named, earlier, range⟩)
      · rw [List.mem_singleton.1 last] at range
        exact Or.inl range.1

/-- The masks follow every sequence of calls that leaves the cascade line alone. -/
theorem irqCalls_bookkept (calls : List IrqCall) (written : List (Nat × BitVec 8))
    (notCascade : ∀ call ∈ calls, call.irqNum ≠ 2) :
    MasksFollow calls (calls.foldl IrqCall.run (maskedPic written)) ∧
      ∀ call : IrqCall, 15 < call.irqNum.toNat → ∀ pic : Pic, call.run pic = pic := by
  refine ⟨?_, fun call above pic => irqCall_above pic call above⟩
  induction calls using List.reverseRecOn with
  | nil => exact masksFollow_masked written
  | append_singleton calls call inductionHypothesis =>
      rw [List.foldl_append]
      apply masksFollow_run
      · apply inductionHypothesis
        intro earlier member
        exact notCascade earlier (List.mem_append_left _ member)
      · exact notCascade call (by simp)

theorem irqCalls_bookkept_keyboard :
    MasksFollow [.enable 1, .enable 8, .disable 8]
      ([IrqCall.enable 1, .enable 8, .disable 8].foldl IrqCall.run (maskedPic [])) :=
  (irqCalls_bookkept [.enable 1, .enable 8, .disable 8] [] (by decide)).1

end ComputerSystems.Kernel

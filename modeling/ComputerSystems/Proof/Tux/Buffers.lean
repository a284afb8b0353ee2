import ComputerSystems.Construction.Tux.LineDiscipline

namespace ComputerSystems.Tux
open Library

variable (tx rx : Buffer)

theorem acceptedBytes_eq (buf : List UInt8) : acceptedBytes buf tx = buf.take tx.room := by
  rw [acceptedBytes, storeOutput, (tx.fill_spec buf).1, List.length_drop]
  apply List.take_eq_take_iff.2
  omega

theorem storeOutput_contents (buf : List UInt8) :
    (storeOutput buf tx).2.contents = tx.contents ++ acceptedBytes buf tx := by
  rw [acceptedBytes_eq]
  exact (tx.fill_spec buf).2

theorem storeOutput_used (buf : List UInt8) :
    (storeOutput buf tx).2.used = min (tx.used + buf.length) (tuxctlBufsize - 1) := by
  have stored := congrArg List.length (storeOutput_contents tx buf)
  have bound := tx.used_lt
  rw [List.length_append, acceptedBytes_eq, List.length_take, Ring.contents_length,
    Ring.contents_length, Ring.room] at stored
  omega

/-- The loop of the wakeup takes one byte more than there is room for. -/
theorem takeOutput_spec (room : Int) :
    (takeOutput room tx).1 = tx.contents.take (room + 1).toNat ∧
      (takeOutput room tx).2.contents = tx.contents.drop (room + 1).toNat := by
  apply tx.drain_spec
  intro taken
  rw [decide_eq_true_eq]
  omega

theorem takeOutput_used (room : Int) :
    (takeOutput room tx).2.used = tx.used - (room + 1).toNat := by
  have left := congrArg List.length (takeOutput_spec tx room).2
  rwa [List.length_drop, Ring.contents_length, Ring.contents_length] at left

theorem tuxctlLdiscGet_spec (n : Nat) :
    (tuxctlLdiscGet n rx).1 = rx.contents.take n ∧
      (tuxctlLdiscGet n rx).2.contents = rx.contents.drop n := by
  apply rx.drain_spec
  intro taken
  rw [decide_eq_true_eq]

end ComputerSystems.Tux

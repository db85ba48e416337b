import BootMedia.Failure

namespace BootMedia

abbrev Signal := { number : Nat // 1 ≤ number ∧ number ≤ 64 }

inductive Termination where
  | exited (status : UInt8)
  | signalled (signal : Signal)
deriving DecidableEq

/-- An exit status stands for itself, and a signal for its number above 128. -/
def Termination.exitCode : Termination → Int
  | exited status => status.toNat
  | signalled signal => 128 + signal.val

def statusByte (code : Int) : UInt8 := .ofNat (code % 256).toNat

theorem toNat_statusByte {code : Int} (h : 0 ≤ code) (h' : code < 256) :
    ((statusByte code).toNat : Int) = code := by
  unfold statusByte
  rw [UInt8.toNat_ofNat']
  omega

theorem Termination.exitCode_nonneg (t : Termination) : 0 ≤ t.exitCode := by
  cases t <;> simp only [exitCode] <;> omega

theorem Termination.exitCode_lt (t : Termination) : t.exitCode < 256 := by
  cases t with
  | exited status =>
    have h := status.toNat_lt
    simp only [exitCode]
    omega
  | signalled signal =>
    have h := signal.property
    simp only [exitCode]
    omega

theorem Termination.toNat_statusByte_exitCode (t : Termination) :
    ((statusByte t.exitCode).toNat : Int) = t.exitCode :=
  toNat_statusByte t.exitCode_nonneg t.exitCode_lt

end BootMedia

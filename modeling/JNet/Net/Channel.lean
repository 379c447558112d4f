import Mathlib.Data.BitVec

/-! # `jnet::Channel`

    The interest mask of a descriptor (`net/channel.h`).  Every change of the
    mask is passed on to the poller by `Update`; here the mask itself is the
    interest.
-/

namespace JNet

/-! ## Event bits of `poll` -/

def POLLIN : BitVec 16 := 0x001#16
def POLLPRI : BitVec 16 := 0x002#16
def POLLOUT : BitVec 16 := 0x004#16

/-! ## The class -/

structure Channel where
  fd_ : Int
  events_ : BitVec 16
  deriving DecidableEq, Repr

namespace Channel

def kReadEvent : BitVec 16 := POLLIN ||| POLLPRI
def kWriteEvent : BitVec 16 := POLLOUT

def enableRead (ch : Channel) : Channel := { ch with events_ := ch.events_ ||| kReadEvent }
def enableWrite (ch : Channel) : Channel := { ch with events_ := ch.events_ ||| kWriteEvent }
def disableWrite (ch : Channel) : Channel := { ch with events_ := ch.events_ &&& ~~~kWriteEvent }
def isWriting (ch : Channel) : Bool := ch.events_ &&& kWriteEvent != 0

/-- Write interest is bit 2 of the mask. -/
theorem isWriting_eq_bit (ch : Channel) : ch.isWriting = ch.events_.getLsbD 2 := by
  have hbit : kWriteEvent = BitVec.twoPow 16 2 := by decide
  rw [isWriting, hbit, BitVec.and_twoPow]
  cases ch.events_.getLsbD 2 <;> decide

@[simp] theorem isWriting_enableWrite (ch : Channel) : ch.enableWrite.isWriting = true := by
  have hbit : kWriteEvent.getLsbD 2 = true := by decide
  rw [isWriting_eq_bit, enableWrite, BitVec.getLsbD_or, hbit, Bool.or_true]

@[simp] theorem isWriting_disableWrite (ch : Channel) : ch.disableWrite.isWriting = false := by
  have hbit : (~~~kWriteEvent).getLsbD 2 = false := by decide
  rw [isWriting_eq_bit, disableWrite, BitVec.getLsbD_and, hbit, Bool.and_false]

/-- Read and write interest do not share a bit. -/
@[simp] theorem isWriting_enableRead (ch : Channel) :
    ch.enableRead.isWriting = ch.isWriting := by
  have hbit : kReadEvent.getLsbD 2 = false := by decide
  rw [isWriting_eq_bit, isWriting_eq_bit, enableRead, BitVec.getLsbD_or, hbit, Bool.or_false]

end Channel

end JNet

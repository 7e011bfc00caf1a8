namespace MarsWrapper

/-- These are the task fields that the wrapper sets before it calls `StartTask`. -/
structure Task where
  taskid : UInt32
  cmdid : UInt32
  channelSelect : Int
  needAuthed : Bool
  priority : Int
  deriving DecidableEq

namespace Task

def kChannelLong : Int := 2
def kTaskPriorityNormal : Int := 3

def kInvalidTaskID : UInt32 := 0
def kNoopTaskID : UInt32 := 0xFFFFFFFF
def kLongLinkIdentifyCheckerTaskID : UInt32 := 0xFFFFFFFE
def kSignallingKeeperTaskID : UInt32 := 0xFFFFFFFD

end Task

def kTaskFailHandleNoError : Int := 0
def kTaskFailHandleDefault : Int := -1

def kEctOK : Int := 0

end MarsWrapper

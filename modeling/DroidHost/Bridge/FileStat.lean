namespace DroidHost

structure FileStat where
  name : String
  mode : UInt32
  size : UInt32
  mtime : UInt32
  deriving DecidableEq, Repr

namespace FileStat

/-- A path that is not there is reported with zeros in all three fields. -/
def isThere (s : FileStat) : Bool := s.mode ≠ 0 || s.size ≠ 0 || s.mtime ≠ 0

def kind (s : FileStat) : UInt32 := s.mode &&& 0xF000

def isDirectory (s : FileStat) : Bool := s.kind = 0x4000

def isRegular (s : FileStat) : Bool := s.kind = 0x8000

def permissions (s : FileStat) : UInt32 := s.mode &&& 0xFFF

end FileStat
end DroidHost

import DroidHost.Bytes

/-! Keys of the host, which sign the device's token. -/
namespace DroidHost

inductive AuthType
  | token
  | signature
  | publicKey
  deriving DecidableEq, Repr

namespace AuthType

def word : AuthType → UInt32
  | token => 1
  | signature => 2
  | publicKey => 3

def ofWord? (word : UInt32) : Option AuthType :=
  [token, signature, publicKey].find? (·.word = word)

end AuthType

structure Signer where
  sign : (token : Bytes) → Bytes
  publicKey : Bytes

end DroidHost

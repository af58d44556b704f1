import TokenBridge.Destination

namespace TokenBridge

structure Deposit where
  token : Address
  sender : Address
  destination : Destination
  amount : UInt256
  nonce : UInt64
deriving DecidableEq

end TokenBridge

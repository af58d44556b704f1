import TokenBridge.BridgeError

namespace TokenBridge

structure Gate where
  admin : Address
  implementation : Implementation
deriving DecidableEq

namespace Gate

def new (admin : Address) : Gate := ⟨admin, .v1⟩

variable (g : Gate)

def ensureAdmin (caller : Address) : Except BridgeError Unit :=
  if caller = g.admin then .ok () else .error (.unauthorized caller)

def ensureSupported (entry : EntryPoint) : Except BridgeError Unit :=
  if g.implementation.supports entry then .ok ()
  else .error (.unsupportedEntryPoint entry g.implementation)

def changeAdmin (caller new : Address) : Except BridgeError Address × Gate :=
  match g.ensureAdmin caller with
  | .error e => (.error e, g)
  | .ok () =>
    if new.isZero then (.error .zeroAdmin, g) else (.ok g.admin, { g with admin := new })

def upgrade (caller : Address) (version : Implementation) : Except BridgeError Unit × Gate :=
  match g.ensureAdmin caller with
  | .error e => (.error e, g)
  | .ok () => (.ok (), { g with implementation := version })

end Gate

end TokenBridge

import ListingHub.Text.Quoted
import ListingHub.Time.Duration

/-!
# Connection settings

The limits of every connection, and what happens to a message for a connection whose queue is full.
-/

namespace ListingHub

/-- What happens when a recipient's queue is full. -/
inductive OverflowPolicy where
  /-- The connection is removed. -/
  | disconnect
  /-- The message is not delivered there. -/
  | dropMessage
  deriving DecidableEq, Repr

namespace OverflowPolicy

/-- The name of a policy. -/
def name : OverflowPolicy → String
  | disconnect => "disconnect"
  | dropMessage => "drop"

/-- The policy of a name in any mixture of ASCII cases. -/
def ofName? (name : String) : Option OverflowPolicy :=
  [disconnect, dropMessage].find? fun policy => policy.name == name.map Char.toLower

/-- The message about a name that no policy has. -/
def unknownMessage (name : String) : String :=
  "unknown overflow policy " ++ Text.quoted (name.map Char.toLower)

end OverflowPolicy

/-- The limits of a connection. -/
structure Settings where
  /-- How long a connection may stay without a pong. -/
  pongWait : Duration
  /-- The largest frame that is read, in bytes. -/
  maxFrameBytes : Nat
  /-- How many messages may wait for a connection. -/
  outboundCapacity : Nat
  overflowPolicy : OverflowPolicy
  deriving DecidableEq

namespace Settings

/-- A millisecond. -/
def shortestInterval : Duration := ⟨0, 1_000_000, by decide, by decide⟩

/-- The time between two pings: nine tenths of the wait for a pong, at least a millisecond, and
`none` when nine times the wait is no duration. -/
def pingInterval (settings : Settings) : Option Duration :=
  (settings.pongWait.mul? 9).map fun d => (d.div 10).max shortestInterval

/-- The settings of a hub that was not configured. -/
def standard : Settings where
  pongWait := ⟨10, 0, by decide, Duration.zero_lt_second⟩
  maxFrameBytes := 1024
  outboundCapacity := 64
  overflowPolicy := .disconnect

end Settings

end ListingHub

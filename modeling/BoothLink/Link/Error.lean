import BoothLink.Wire.Error

/-!
# What can go wrong on a connection

* `IoKind`: the ways in which the system below refuses to read or write.
* `LinkError`, `LinkError.name`, `LinkError.message`: the errors of a connection, their names and their
  wording.
* `LinkError.isClosed`: whether an error means that the stream is gone.
-/

namespace BoothLink

/-- A failure of the system below. -/
inductive IoKind where
  | notFound | permissionDenied | connectionRefused | connectionReset | connectionAborted
  | notConnected | addrInUse | addrNotAvailable | brokenPipe | alreadyExists | wouldBlock
  | invalidInput | invalidData | timedOut | writeZero | interrupted | unsupported | unexpectedEof
  | outOfMemory | other | hostUnreachable | networkUnreachable | networkDown | notADirectory
  | isADirectory | directoryNotEmpty | readOnlyFilesystem | staleNetworkFileHandle | storageFull
  | notSeekable | quotaExceeded | fileTooLarge | resourceBusy | executableFileBusy | deadlock
  | crossesDevices | tooManyLinks | invalidFilename | argumentListTooLong
  deriving DecidableEq, Repr

namespace IoKind

def names : List (IoKind × String) := [
  (notFound, "NotFound"), (permissionDenied, "PermissionDenied"),
  (connectionRefused, "ConnectionRefused"), (connectionReset, "ConnectionReset"),
  (connectionAborted, "ConnectionAborted"), (notConnected, "NotConnected"),
  (addrInUse, "AddrInUse"), (addrNotAvailable, "AddrNotAvailable"), (brokenPipe, "BrokenPipe"),
  (alreadyExists, "AlreadyExists"), (wouldBlock, "WouldBlock"), (invalidInput, "InvalidInput"),
  (invalidData, "InvalidData"), (timedOut, "TimedOut"), (writeZero, "WriteZero"),
  (interrupted, "Interrupted"), (unsupported, "Unsupported"), (unexpectedEof, "UnexpectedEof"),
  (outOfMemory, "OutOfMemory"), (other, "Other"), (hostUnreachable, "HostUnreachable"),
  (networkUnreachable, "NetworkUnreachable"), (networkDown, "NetworkDown"),
  (notADirectory, "NotADirectory"), (isADirectory, "IsADirectory"),
  (directoryNotEmpty, "DirectoryNotEmpty"), (readOnlyFilesystem, "ReadOnlyFilesystem"),
  (staleNetworkFileHandle, "StaleNetworkFileHandle"), (storageFull, "StorageFull"),
  (notSeekable, "NotSeekable"), (quotaExceeded, "QuotaExceeded"), (fileTooLarge, "FileTooLarge"),
  (resourceBusy, "ResourceBusy"), (executableFileBusy, "ExecutableFileBusy"),
  (deadlock, "Deadlock"), (crossesDevices, "CrossesDevices"), (tooManyLinks, "TooManyLinks"),
  (invalidFilename, "InvalidFilename"), (argumentListTooLong, "ArgumentListTooLong")]

def name (k : IoKind) : String := ((names.find? (·.1 = k)).map (·.2)).getD ""

def ofName? (s : String) : Option IoKind := (names.find? (·.2 = s)).map (·.1)

/-- The wording of a failure, as the system gives it; one that is none of the system's goes by its name. -/
def message : IoKind → String
  | connectionRefused => "Connection refused (os error 111)"
  | connectionReset => "Connection reset by peer (os error 104)"
  | connectionAborted => "Software caused connection abort (os error 103)"
  | notConnected => "Transport endpoint is not connected (os error 107)"
  | addrInUse => "Address already in use (os error 98)"
  | addrNotAvailable => "Cannot assign requested address (os error 99)"
  | brokenPipe => "Broken pipe (os error 32)"
  | timedOut => "Connection timed out (os error 110)"
  | hostUnreachable => "No route to host (os error 113)"
  | networkUnreachable => "Network is unreachable (os error 101)"
  | networkDown => "Network is down (os error 100)"
  | k => k.name

end IoKind

/-- An error of a connection. -/
inductive LinkError where
  | io (kind : IoKind)
  | protocol (cause : WireError)
  /-- The peer ended the stream inside a message, or the connection has ended. -/
  | closed
  | timeout
  /-- Another request for services has not been answered yet. -/
  | alreadyInFlight
  | sendChannelClosed
  deriving DecidableEq, Repr

namespace LinkError

/-- The name of an error, whatever it carries. -/
def name : LinkError → String
  | io _ => "Io"
  | protocol _ => "Protocol"
  | closed => "Closed"
  | timeout => "Timeout"
  | alreadyInFlight => "AlreadyInFlight"
  | sendChannelClosed => "SendChannelClosed"

def message : LinkError → String
  | io kind => "IO error: " ++ kind.message
  | protocol cause => "Protocol error: " ++ cause.message
  | closed => "Connection closed"
  | timeout => "Connection timeout"
  | alreadyInFlight => "Services request already in flight"
  | sendChannelClosed => "Send channel closed"

/-- Whether the stream below is gone. -/
def isClosed : LinkError → Bool
  | closed => true
  | io kind =>
    kind ∈ [.unexpectedEof, .brokenPipe, .connectionReset, .connectionAborted, .notConnected]
  | _ => false

end LinkError

end BoothLink

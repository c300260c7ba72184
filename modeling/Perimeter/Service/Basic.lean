import Perimeter.Blob.Find
import Perimeter.Image.Binarize
import Perimeter.Image.Overlay
import Perimeter.Web.Address

/-!
# The service

What the service that traces over the network needs to know, and how it tells failures to its clients.
-/

namespace Perimeter

/-- How to set up the service. -/
structure Service.Config where
  host : String := "localhost"
  port : Int := 8080
  corsOrigin : String := "*"
  /-- The greatest size of a request, in units of 2²⁰ bytes. -/
  maxUpload : Int := 50
  /-- Seconds until a request is given up; none when it is not positive. -/
  timeout : Int := 30
  /-- The number of edges in a message of a streamed walk. -/
  chunkSize : Int := 256
  blob : Blob.Config := {}
  binarize : BinarizeOptions := {}
  overlay : Overlay.Options := {}

/-- A service that is ready to answer. Requests may ask for other options than its own. -/
structure Service where
  /-- The address that it listens on. -/
  address : String
  corsOrigin : String
  /-- The greatest number of bytes of a request. -/
  limit : Int
  /-- Seconds until a request is given up; none when it is not positive. -/
  timeout : Int
  chunkSize : Int
  chunkSize_pos : 0 < chunkSize
  blob : Blob.Config
  binarize : BinarizeOptions
  overlay : Overlay.Options

namespace Service

/-- The size of messages when none is given. -/
def defaultChunkSize : Int := 256

/-- A size of messages that can be used. -/
def usableChunkSize (n : Int) : Int := if 0 < n then n else defaultChunkSize

/-- A size of messages that can be used is positive. -/
theorem usableChunkSize_pos (n : Int) : 0 < usableChunkSize n := by
  unfold usableChunkSize defaultChunkSize
  split <;> omega

/-- Sets up a service. -/
def create (c : Config) : Except Failure Service :=
  if c.maxUpload ≤ 0 then .error (.plain "max upload size must be positive")
  else
    .ok
      { address := Web.joinAddress c.host c.port
        corsOrigin := c.corsOrigin
        limit := max 0 (wrap64 (c.maxUpload * 1048576))
        timeout := c.timeout
        chunkSize := usableChunkSize c.chunkSize
        chunkSize_pos := usableChunkSize_pos c.chunkSize
        blob := c.blob
        binarize := c.binarize
        overlay := if c.overlay.scale ≤ 0 then {} else c.overlay }

/-- Requests are given up before they start. The timeout is counted in nanoseconds, whose number wraps
when it does not fit a word, and then time is up already. -/
def givesUp (s : Service) : Bool :=
  decide (0 < s.timeout) && decide (wrap64 (s.timeout * 1000000000) ≤ 0)

/-- The status of a response about a failure. What is no fault of the picture or the seed is a malformed
request. -/
def statusOf (e : Failure) : Nat :=
  match e.fault? with
  | some f => if f.kind = .state then 500 else 422
  | none => 400

/-- The kind of a failure that clients are told; empty for malformed requests. -/
def kindOf (e : Failure) : String :=
  match e.fault? with
  | some f => f.kind.name
  | none => ""

/-- An image from the content of a file. -/
def decode : Web.Content → Except Failure Image
  | .image i => .ok i.reloaded
  | .text _ => .error (.image "decode" "image: unknown format")

end Service

end Perimeter

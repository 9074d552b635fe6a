import DocumentStore.Contents
import DocumentStore.Hook
import DocumentStore.Instant.Text
import DocumentStore.ObjectId
import DocumentStore.Settings

/-!
The state of an engine, and the clock it reads.
-/

namespace DocumentStore

/-- A clock gives its scheduled readings first and then stands still. Readings are in milliseconds
since 1970. -/
structure Clock where
  scheduled : List Int := []
  standing : Int := 0

def Clock.read (c : Clock) : Int × Clock :=
  match c.scheduled with
  | t :: rest => (t, { c with scheduled := rest })
  | [] => (c.standing, c)

structure Engine where
  settings : Settings := {}
  contents : Contents := {}
  hooks : HookRegistry := []
  clock : Clock := {}
  ids : IdSupply := {}
  journal : List JournalEntry := []

namespace Engine

def stamp (e : Engine) : String × Engine :=
  let (millis, clock) := e.clock.read
  ((Instant.ofMillis millis).format, { e with clock := clock })

def clear (e : Engine) : Engine := { e with contents := {}, hooks := [] }

def register (e : Engine) (className : String) (kind : HookKind) (hook : Hook) : Engine :=
  { e with hooks := e.hooks.register className kind hook }

def unregister (e : Engine) (className : String) (kind : HookKind) : Engine :=
  { e with hooks := e.hooks.unregister className kind }

def note (e : Engine) (entry : JournalEntry) : Engine := { e with journal := e.journal ++ [entry] }

end Engine

end DocumentStore

import NoteAgent.Json.Key
import NoteAgent.Tool.Dispatch
/-!
# Registry — the tools that a model may call

A registry holds tools under names.  A call is run by the tool under its name, whatever the model wrote, and has a text for
an answer in any case.  The nine tools run for one user are a registry.
-/
namespace NoteAgent
namespace Tool

/-- A tool as a registry holds it: its name, and what it does with the arguments of a call. -/
structure Offer where
  name : String
  execute : Json → Attempt World String

/-- The tools that a model may call. -/
structure Registry where
  offers : List Offer

namespace Registry

def names (r : Registry) : List String := r.offers.map Offer.name

/-- The tool under a name. -/
def find? (r : Registry) (name : Json) : Option Offer := r.offers.find? fun o => Json.sameKey (.text o.name) name

/-- Runs a call. -/
def dispatch (r : Registry) (name arguments : Json) : Attempt World String :=
  answerTo (Json.shown name) ((r.find? name).map fun o => o.execute arguments)

end Registry

/-- The text of a call's arguments.  Arguments that are no text stand as the null of JSON, which no form reads. -/
def rawText : Json → String
  | .text s => s
  | _ => "null"

/-- The nine tools, run for a user. -/
def registry (c : Caller) : Registry := ⟨all.map fun t => ⟨t.name, fun arguments => t.execute c (rawText arguments)⟩⟩

theorem names_registry (c : Caller) : (registry c).names = all.map name := rfl

theorem dispatch_registry (c : Caller) (name raw : String) :
    (registry c).dispatch (.text name) (.text raw) = run c name raw := by
  have hfind : (registry c).find? (.text name) =
      (named? name).map fun t => ⟨t.name, fun arguments => t.execute c (rawText arguments)⟩ :=
    List.find?_map ..
  rw [Registry.dispatch, hfind, Option.map_map]
  rfl

end Tool
end NoteAgent

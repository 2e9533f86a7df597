/-
Engines: a library with a render cache.

Changes to the library leave the cache alone, and renders leave the library alone. Every operation gives the engine it
leaves, also when it fails. A `Renderer` renders on behalf of an engine, below the names it is given as its chain.
-/
import BlockTemplates.Engine.Render
import BlockTemplates.Markup.Scan

namespace BlockTemplates

/-- a library, and the outputs that have been rendered from it -/
structure Engine where
  library : Library
  cache : Cache

namespace Engine

def empty : Engine :=
  ⟨Library.empty, Cache.empty⟩

def ofLibrary (lib : Library) : Engine :=
  ⟨lib, Cache.empty⟩

def parse (engine : Engine) (input : String) (policy : Policy) : Engine × Except Error Unit :=
  let (lib, result) := engine.library.parse input policy
  ({ engine with library := lib }, result)

def add (engine : Engine) (t : Template) (policy : Policy) : Engine × Except Error Unit :=
  match engine.library.add t policy with
  | .ok lib => ({ engine with library := lib }, .ok ())
  | .error e => (engine, .error e)

def merge (engine : Engine) (other : Library) (policy : Policy) : Engine × Except Error Unit :=
  let (lib, result) := engine.library.merge other policy
  ({ engine with library := lib }, result)

def clearCache (engine : Engine) : Engine :=
  { engine with cache := engine.cache.clear }

/-- does a computation on the engine's cache -/
def rendering {α : Type} (engine : Engine) (r : Rendering α) : Engine × Except Error α :=
  let (result, cache) := r.on engine.cache
  ({ engine with cache := cache }, result)

def render (engine : Engine) (name : String) (slots : Slots) : Engine × Except Error String :=
  engine.rendering (engine.library.renderWithin [] name slots)

/-- renders a template that need not be in the library; its own output is not cached -/
def renderTemplate (engine : Engine) (t : Template) (slots : Slots) : Engine × Except Error String :=
  engine.rendering (t.render (engine.library.renderWithin []) slots)

end Engine

/-- an engine, and the names that are being rendered, outermost first -/
structure Renderer where
  engine : Engine
  chain : List String

namespace Renderer

def ofEngine (engine : Engine) : Renderer :=
  ⟨engine, []⟩

/-- renders the template `name` below the chain -/
def render (r : Renderer) (name : String) (slots : Slots) : Renderer × Except Error String :=
  let (engine, result) := r.engine.rendering (r.engine.library.renderWithin r.chain name slots)
  ({ r with engine := engine }, result)

end Renderer

end BlockTemplates

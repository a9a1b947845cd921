import PluginSandbox.Machine.Timed
import PluginSandbox.Text.Quoted

/-!
# Plugins

A plugin is a loaded module with an entry operation that takes no arguments.  It can be executed any number
of times; what it prints adds up until the lines are taken.
-/

namespace PluginSandbox

/-- A loaded module that can be executed: its entry operation, the greatest number of frames of an execution, and what
it has left behind so far. -/
structure Plugin where
  module : LoadedModule
  entry : Function
  maxCallDepth : Nat
  context : PluginContext

/-- An execution of a plugin: nothing or the failure, if it has ended, and the plugin and the loader behind it. -/
structure Execution where
  result : Option (Except PluginFailure Unit)
  plugin : Plugin
  loader : Loader

namespace Plugin

/-- The plugin of a module, with a limit on the number of frames; at least one frame is allowed. -/
def instantiate (m : LoadedModule) (maxCallDepth : Nat) : Except PluginFailure Plugin :=
  match m.module.function? ContractType.entryOperation with
  | none => .error (.instantiation (.missing m.module.name))
  | some entry =>
    if entry.arity ≠ 0 then .error (.instantiation (.takesArguments m.module.name))
    else
      .ok { module := m, entry, maxCallDepth := max maxCallDepth 1
            context := { plugin := m.module.name } }

/-- The name of the unit that the plugin was compiled from. -/
def name (p : Plugin) : String :=
  p.module.module.name

/-- The lines printed so far and not taken. -/
def output (p : Plugin) : Array String :=
  p.context.output

/-- The lines printed so far, and the plugin without them. -/
def takeOutput (p : Plugin) : Array String × Plugin :=
  let (lines, context) := p.context.toNativeContext.takeOutput
  (lines, { p with context := { p.context with toNativeContext := context } })

/-- A plugin as a developer sees it. -/
def description (p : Plugin) : String :=
  s!"ScriptPlugin \x7b module: {quoted p.name}, max_call_depth: {p.maxCallDepth} \x7d"

/-- An execution of a plugin, which is abandoned when it does not end within a limit. -/
def execute (p : Plugin) (host : Host) (loader : Loader) (limit : Limit) : Execution :=
  if Frame.Overflows p.entry then
    { result := some (.error (.crashed .capacityOverflow)), plugin := p, loader }
  else
    let machine := Machine.start loader p.context p.module p.entry
    match machine.runWithin { host, maxCallDepth := p.maxCallDepth } limit with
    | .next m =>
      { result := none, plugin := { p with context := m.context }, loader := m.loader }
    | .done e =>
      { result := some (e.result.map fun _ => ())
        plugin := { p with context := e.context }
        loader := e.loader }

end Plugin
end PluginSandbox

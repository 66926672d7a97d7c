import DetectorLink.Config.Basic
import DetectorLink.Config.Datum
import DetectorLink.Link.Files
import DetectorLink.Toml.Document

/-!
# Reading configurations

A configuration is a structure of named fields, some of which may be left out. A structure is
written as a table, whose other entries are ignored, or as a list of its fields in order. One of
several names is written as that name, or as a table whose only entry has that name and no content.
-/

namespace DetectorLink

/-- What two dialects of data do differently. -/
structure Dialect where
  /-- A list may have more items than the structure has fields. -/
  moreItems : Bool
  /-- What counts as no content. -/
  isNothing : Datum → Bool

/-- Configuration files: no content is an empty table or list. -/
def Dialect.file : Dialect where
  moreItems := true
  isNothing d := match d with
    | .table [] | .list [] => true
    | _ => false

/-- Exchanged data: no content is null. -/
def Dialect.exchange : Dialect where
  moreItems := false
  isNothing d := match d with
    | .null => true
    | _ => false

namespace Datum

/-- The text itself. -/
def text? : Datum → Option String
  | text s => some s
  | _ => none

/-- An integer from 0 up to a bound. -/
def natBelow? (bound : Nat) : Datum → Option Nat
  | int n => if 0 ≤ n ∧ n < bound then some n.toNat else none
  | _ => none

/-- The items of a list. -/
def items? : Datum → Option (List Datum)
  | list items => some items
  | _ => none

/-- The fields of a structure with `names`, in their order; none for one that is left out. -/
def fields? (style : Dialect) (names : List String) : Datum → Option (List (Option Datum))
  | table entries => some (names.map fun name => entries.lookup name)
  | list items =>
    if names.length < items.length && !style.moreItems then none
    else some ((List.range names.length).map (items[·]?))
  | _ => none

/-- One of several names. -/
def choice? {α : Type} (style : Dialect) (choices : List α) (name : α → String) :
    Datum → Option α
  | text s => choices.find? (name · == s)
  | table [(s, content)] =>
    if style.isNothing content then choices.find? (name · == s) else none
  | _ => none

/-- A field that may be left out. -/
def orDefault {α : Type} (default : α) (read : Datum → Option α) : Option Datum → Option α
  | some d => read d
  | none => some default

end Datum

open Datum (orDefault choice? natBelow?)

/-- All levels. -/
def LogLevel.all : List LogLevel := [.trace, .debug, .info, .warn, .error]

/-- All kinds of links. -/
def LinkKind.all : List LinkKind := [.hardware, .pipe, .socket]

/-- All interfaces. -/
def Interface.all : List Interface := [.lvds, .optical, .socket]

/-- All ways to reach a module. -/
def ModulePath.all : List ModulePath := [.direct, .lvds]

/-- Read the fields that all applications share. -/
def ServiceConfig.ofDatum? (style : Dialect) (d : Datum) : Option ServiceConfig := do
  match ← d.fields? style ["log_level", "service_name"] with
  | [level, name] =>
    return {
      logLevel := ← orDefault .info (choice? style LogLevel.all LogLevel.name) level
      name := ← (← name).text? }
  | _ => none

/-- Read the link to open. -/
def LinkConfig.ofDatum? (style : Dialect) (d : Datum) : Option LinkConfig := do
  match ← d.fields? style ["device", "kind", "interface", "local_buffer_size", "wait_timeout_ms"] with
  | [device, kind, interface, size, timeout] =>
    return {
      device := ← (← device).text?
      kind := ← orDefault .hardware (choice? style LinkKind.all LinkKind.name) kind
      interface := ← orDefault .optical (choice? style Interface.all Interface.name) interface
      localBufferSize := ← orDefault LinkConfig.defaultBufferSize (natBelow? Numeral.longBound) size
      waitTimeout := ← orDefault LinkConfig.defaultWaitTimeout (natBelow? Numeral.longBound) timeout }
  | _ => none

/-- Read how commands reach a module; null leaves it open. -/
def ModulePath.ofDatum? (style : Dialect) : Datum → Option (Option ModulePath)
  | .null => some none
  | d => (choice? style ModulePath.all ModulePath.name d).map some

/-- Read a module. -/
def ModuleConfig.ofDatum? (style : Dialect) (d : Datum) : Option ModuleConfig := do
  match ← d.fields? style ["name", "hardware_id", "module_type", "link", "response_timeout_ms"] with
  | [name, hardwareId, moduleType, path, timeout] =>
    return {
      name := ← (← name).text?
      hardwareId := ← HardwareId.parse? (← (← hardwareId).text?)
      moduleType := .ofByte (UInt8.ofNat (← (← moduleType).natBelow? 256))
      path? := ← orDefault none (ModulePath.ofDatum? style) path
      responseTimeout :=
        ← orDefault ModuleConfig.defaultResponseTimeout (natBelow? Numeral.longBound) timeout }
  | _ => none

/-- Read a configuration. -/
def Config.ofDatum? (style : Dialect) (d : Datum) : Option Config := do
  match ← d.fields? style ["shared", "link", "modules"] with
  | [service, link, modules] =>
    return {
      service := ← ServiceConfig.ofDatum? style (← service)
      link := ← LinkConfig.ofDatum? style (← link)
      modules := ← orDefault []
        (fun d => do (← d.items?).mapM (ModuleConfig.ofDatum? style)) modules }
  | _ => none

/-- Read a configuration file's text. -/
def Config.parse (content : String) : Except ConfigError Config :=
  match (Toml.read? content).bind (Config.ofDatum? .file) with
  | some c => .ok c
  | none => .error .unreadable

/-- Read a configuration file. -/
def Config.load (files : Files) (name : String) : Except ConfigError Config :=
  match files.find name with
  | .error e => .error (if e.code = 2 then .fileNotFound else .unreadable)
  | .ok (_, .plain content) =>
    match String.fromUTF8? ⟨content.toArray⟩ with
    | some text => Config.parse text
    | none => .error .unreadable
  | .ok _ => .error .unreadable

end DetectorLink

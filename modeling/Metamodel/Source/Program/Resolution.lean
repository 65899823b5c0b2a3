import Metamodel.Source.Program.Entity

/-!
# Names to entities

A name is looked up in the place where it is used and the places around it, among the names that all
texts know, and in the library. Links are followed to what they stand for; a link that leads
nowhere ends the search.
-/

namespace Metamodel.Source

namespace Program

/-- The library names of a name, with a meaning among the given ones. -/
def libraryName? (p : Program) (name : String) (ms : List Meaning) : Option LibraryName :=
  let named := (LibraryName.known p.settings).filter (·.name == name)
  named.findRev? fun n => ms.any (Entity.has (.library n))

/-- What all texts know under a name. -/
def global? (p : Program) (name : String) (ms : List Meaning) : Option Entity :=
  let parts := p.globalDeclarations name
  let library := (p.libraryName? name ms).map Entity.library
  let clashes := (LibraryName.known p.settings).any fun n => n.name == name && conflicts parts n
  match if clashes then none else entity? name parts with
  | some d => if ms.any (Entity.has (.declared d)) then some (.declared d) else library
  | none => library

/-- The fields of an object that a variable is given. -/
def objectFields (st : Statement) (name : String) : List String :=
  match st with
  | .values _ vs =>
    vs.flatMap fun v => match v.value.bind (·.fields?) with
      | some fields => if v.name = name then fields.map (·.1) else []
      | none => []
  | _ => []

/-- The members that belong to a class itself. -/
def staticNames : Statement → List String
  | .type d =>
    if d.kind = .class then
      d.members.filterMap fun m => match m with
        | .named n => if n.head.has "static" then n.name.text? else none
        | _ => none
    else []
  | _ => []

/-- A member of a declared value, other than those of a namespace. -/
def valueMember? (d : Declared) (name : String) : Option Entity :=
  d.parts.findSome? fun part => match part.2 with
    | .enumeration _ _ members =>
      if members.any (·.1 == name) then some (.enumMember d name) else none
    | st =>
      if (staticNames st).contains name || (objectFields st d.name).contains name then
        some (.property part.1.file name)
      else none

mutual

/-- What a name stands for in a place, if the place or one around it knows it; `some none` is a name
that leads nowhere. -/
def localFrom (p : Program) : Nat → List Site → String → List Meaning → Option (Option Entity)
  | 0, _, _, _ => none
  | _, [], _, _ => none
  | n + 1, s :: sites, name, ms =>
    let isOwn := !s.path.isEmpty || ((p.text? s.file).map (·.isModule)).getD false
    let own := if isOwn then entity? name (p.declarationsAt s name) else none
    match own with
    | some d =>
      if ms.any (Entity.has (.declared d)) then some (some (.declared d))
      else localFrom p n sites name ms
    | none =>
      match p.linkAt? s false name with
      | none => localFrom p n sites name ms
      | some link =>
        match targetFrom p n s link with
        | none => some none
        | some e => if ms.any e.has then some (some e) else localFrom p n sites name ms

/-- What a linked name stands for. -/
def targetFrom (p : Program) : Nat → Site → Link → Option Entity
  | 0, _, _ => none
  | n + 1, s, link =>
    match link with
    | .export source name =>
      (((p.text? s.file).bind fun text => text.modules.lookup source)).bind fun file =>
        exportFrom p n [] file name
    | .module source =>
      ((p.text? s.file).bind fun text => text.modules.lookup source).bind fun file =>
        match (p.linkAt? ⟨file, []⟩ true "export=") with
        | some link => targetFrom p n ⟨file, []⟩ link
        | none =>
          if ((p.text? file).map (·.isModule)).getD false then some (.module file) else none
    | .path words => pathFrom p n s words [.type, .value, .namespace]

/-- What a module exports under a name; `above` are the modules that export its names on. -/
def exportFrom (p : Program) : Nat → List String → String → String → Option Entity
  | 0, _, _, _ => none
  | n + 1, above, file, name =>
    let site : Site := ⟨file, []⟩
    if !((p.text? file).map (·.isModule)).getD false || above.contains file then none
    else
      match entity? name (p.exportedAt site name) with
      | some d => some (.declared d)
      | none =>
        match p.linkAt? site true name with
        | some link => targetFrom p n site link
        | none =>
          match p.linkAt? site true "export=" with
          | some link =>
            (targetFrom p n site link).bind fun e =>
              if name = "default" then some e else memberFrom p n e name
          | none =>
            if name = "default" then none
            else
              (p.statementsAt site).findSome? fun st => match st with
                | .exportAll source =>
                  ((p.text? file).bind fun text => text.modules.lookup source).bind fun target =>
                    exportFrom p n (file :: above) target name
                | _ => none

/-- What stands under a name in an entity. -/
def memberFrom (p : Program) : Nat → Entity → String → Option Entity
  | 0, _, _ => none
  | n + 1, e, name =>
    match e with
    | .module file => exportFrom p n [] file name
    | .library _ | .libraryMember _ => some (.libraryMember name)
    | .declared d =>
      let sites := (d.parts.filterMap fun part => match part.2 with
        | .namespace _ (own :: _) _ => some (part.1.inner own)
        | _ => none).eraseDups
      match entity? name (sites.flatMap fun s => p.exportedAt s name) with
      | some member => some (.declared member)
      | none =>
        match sites.findSome? fun s => (p.linkAt? s true name).map (s, ·) with
        | some (s, link) => targetFrom p n s link
        | none => valueMember? d name
    | _ => none

/-- What a dotted name stands for in a place. -/
def pathFrom (p : Program) : Nat → Site → List String → List Meaning → Option Entity
  | 0, _, _, _ => none
  | _, _, [], _ => none
  | n + 1, s, [name], ms =>
    match localFrom p n s.outwards name ms with
    | some found => found
    | none => p.global? name ms
  | n + 1, s, first :: rest, ms =>
    let front : List Meaning := if ms.contains .value then [.namespace, .value] else [.namespace]
    (pathFrom p n s [first] front).bind fun e =>
      (rest.foldl (fun found name => found.bind fun e => memberFrom p n e name) (some e)).bind
        fun e => if ms.any e.has then some e else none

end

/-- A number of steps that suffices to follow links: on each step a link, an export of a module's
names or a word of a dotted name is left behind. -/
def linkBudget (p : Program) : Nat :=
  let links := p.texts.foldl (fun n t => n + t.2.statements.length +
    (t.2.statements.foldl (fun k st => match st with
      | .links _ bindings => k + bindings.length
      | _ => k) 0)) 0
  4 * (links + 4) * (p.texts.length + 4)

/-- What a dotted name stands for in a place, in one of some meanings. -/
def resolve? (p : Program) (s : Site) (path : List String) (ms : List Meaning) : Option Entity :=
  pathFrom p (p.linkBudget + path.length + s.path.length) s path ms

end Program

end Metamodel.Source

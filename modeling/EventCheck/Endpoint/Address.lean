/-! # Addresses of hosts

    Which texts write an address of version 4 or 6.

    - Version 4: four numbers below 256 without needless zeros.
    - Version 6: eight groups of up to four hexadecimal digits; one run of zeros
      may be left out, the last two groups may be written as version 4, and a
      zone may follow.
-/

namespace EventCheck

namespace Address

/-- The parts of a text between separators. -/
def parts (separator : Char) (cs : List Char) : List (List Char) :=
  match cs with
  | [] => [[]]
  | c :: rest =>
    if c == separator then [] :: parts separator rest
    else
      match parts separator rest with
      | [] => [[c]]
      | part :: more => (c :: part) :: more

def isOctet (cs : List Char) : Bool :=
  !cs.isEmpty && cs.all Char.isDigit && cs.length ≤ 3 && (cs == ['0'] || cs.head? != some '0')
    && cs.foldl (fun n c => n * 10 + (c.toNat - 48)) 0 ≤ 255

def isVersion4 (cs : List Char) : Bool :=
  let octets := parts '.' cs
  octets.length == 4 && octets.all isOctet

def isHexDigit (c : Char) : Bool :=
  c.isDigit || ('a' ≤ c && c ≤ 'f') || ('A' ≤ c && c ≤ 'F')

/-- A group of hexadecimal digits; it is empty where nothing stands between two colons. -/
def isGroup (cs : List Char) : Bool := !cs.isEmpty && cs.all isHexDigit && cs.length ≤ 4

/-- Are these the groups of an address? The parts between its colons, where an empty part stands
    for zeros that are left out. -/
def areGroups (groups : List (List Char)) : Bool :=
  if groups.length < 3 || 9 < groups.length then false
  else
    let inner := (groups.drop 1).dropLast
    match inner.findIdx? List.isEmpty with
    | none => groups.length == 8 && groups.all isGroup
    | some i =>
      let before := groups.take (i + 1)
      let behind := groups.drop (i + 2)
      let before := if before.head? == some [] then before.drop 1 else before
      let opensWell := (groups.head? != some []) || i == 0
      let behind' := if behind.getLast? == some [] then behind.dropLast else behind
      let closesWell := (behind.getLast? != some []) || behind.length == 1
      opensWell && closesWell && before.all isGroup && behind'.all isGroup
        && before.length + behind'.length ≤ 7

/-- The groups of an address, with two groups for an end of version 4. -/
def groups? (cs : List Char) : Option (List (List Char)) :=
  let groups := parts ':' cs
  match groups.getLast? with
  | none => none
  | some last =>
    if last.contains '.' then
      if 3 ≤ groups.length && isVersion4 last then some (groups.dropLast ++ [['0'], ['0']])
      else none
    else some groups

def isVersion6 (cs : List Char) : Bool :=
  let address := cs.takeWhile (· != '%')
  let zone := cs.dropWhile (· != '%')
  let zoneFits := zone.isEmpty || (1 < zone.length && !(zone.drop 1).contains '%')
  zoneFits && (groups? address).any areGroups

end Address

end EventCheck

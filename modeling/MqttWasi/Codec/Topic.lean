import MqttWasi.Codec.Types

namespace MqttWasi

-- `str::contains(['#', '+'])`
def hasWildcard (s : List Char) : Bool :=
  s.any fun c => c == '#' || c == '+'

def validateTopicName (topic : String) : Except Error Unit :=
  if topic.isEmpty then
    .error (.malformedPacket "topic name is empty")
  else if hasWildcard topic.toList then
    .error (.malformedPacket "topic name contains a wildcard")
  else
    .ok ()

-- `str::strip_prefix`
def stripPrefix (pre s : List Char) : Option (List Char) :=
  if pre.isPrefixOf s then some (s.drop pre.length) else none

-- `str::split_once`
def splitOnce (sep : Char) (s : List Char) : Option (List Char × List Char) :=
  if s.contains sep then
    some (s.takeWhile (· ≠ sep), (s.dropWhile (· ≠ sep)).drop 1)
  else
    none

def sharePrefix : List Char := "$share/".toList

-- Whether there is a level after this one is what the source peeks for.
def validateFilterLevels (filter : List Char) : Except Error Unit :=
  go (filter.splitOn '/')
where
  go : List (List Char) → Except Error Unit
    | [] => .ok ()
    | level :: rest =>
      if level.contains '#' ∧ (level ≠ ['#'] ∨ rest ≠ []) then
        .error (.malformedPacket "multi-level wildcard must occupy the final topic level")
      else if level.contains '+' ∧ level ≠ ['+'] then
        .error (.malformedPacket "single-level wildcard must occupy an entire topic level")
      else
        go rest

def validateTopicFilter (filter : String) : Except Error Unit :=
  if filter.isEmpty then
    .error (.malformedPacket "topic filter is empty")
  else
    match stripPrefix sharePrefix filter.toList with
    | none => validateFilterLevels filter.toList
    | some shared =>
      match splitOnce '/' shared with
      | none => .error (.malformedPacket "shared subscription is missing its topic filter")
      | some (shareName, innerFilter) =>
        if shareName.isEmpty ∨ hasWildcard shareName then
          .error (.malformedPacket "shared subscription has an invalid share name")
        else if innerFilter.isEmpty then
          .error (.malformedPacket "shared subscription is missing its topic filter")
        else
          validateFilterLevels innerFilter

end MqttWasi

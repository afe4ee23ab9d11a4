/-!
# Common — the entities the API server and the devices exchange

Image references are lists of characters: Rust compares strings byte by byte, which for UTF-8 is character by character.
-/
namespace ZeroDowntime

structure ContainerConfigV1 where
  environment : Option (List (String × String))
  deriving DecidableEq, Repr

/-- An item of the answer to `GET /device/apps`. -/
structure AppsGetResponseItem where
  id : Int
  applicationId : Int
  image : List Char
  config : Option ContainerConfigV1
  deriving DecidableEq, Repr

/-- The answer to `GET /device/os`. -/
structure OsGetResponse where
  id : Int
  commitHash : List Char
  immediate : Bool
  deriving DecidableEq, Repr

end ZeroDowntime

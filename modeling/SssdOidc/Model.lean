import Mathlib.Algebra.Group.Nat.Defs

/-! src/model.rs, src/config.rs and the resource types of src/scim.rs. -/
namespace SssdOidc.Model

structure User where
  externalId : String
  name : String
  uid : UInt32
  gid : UInt32
  gecos : String
  home : String
  shell : String
  active : Bool
  deriving DecidableEq, Repr

structure Group where
  externalId : String
  name : String
  gid : UInt32
  members : List String
  deriving DecidableEq, Repr

structure ScimGroupRef where
  value : String
  display : Option String
  deriving DecidableEq, Repr

structure ScimUser where
  id : String
  userName : String
  displayName : Option String
  active : Option Bool
  groups : List ScimGroupRef
  deriving DecidableEq, Repr

structure ScimMemberRef where
  value : String
  display : Option String
  deriving DecidableEq, Repr

structure ScimGroup where
  id : String
  displayName : String
  members : List ScimMemberRef
  deriving DecidableEq, Repr

/- A TTL comes from a TOML integer, which is signed 64-bit, into a u64. -/
structure Ttl where
  seconds : Nat
  fits : seconds < 2^63
  deriving DecidableEq, Repr

structure MappingConfig where
  uidRangeMin : UInt32 := 200000
  uidRangeSize : UInt32 := 200000
  gidRangeMin : UInt32 := 200000
  gidRangeSize : UInt32 := 200000
  deriving DecidableEq, Repr

structure UserDefaultsConfig where
  shell : String := "/bin/bash"
  homeTemplate : String := "/home/\x7buser\x7d"
  deriving DecidableEq, Repr

structure CacheConfig where
  ttlSeconds : Ttl := ⟨3600,by decide⟩
  deriving DecidableEq, Repr

inductive OfflineAuthPolicy where
  | cachedStatus
  | deny
  deriving DecidableEq, Repr

structure SecurityConfig where
  offlineAuthPolicy : OfflineAuthPolicy := .cachedStatus
  deriving DecidableEq, Repr

structure Config where
  mapping : MappingConfig := {}
  userDefaults : UserDefaultsConfig := {}
  cache : CacheConfig := {}
  security : SecurityConfig := {}
  deriving DecidableEq, Repr

end SssdOidc.Model

import BtTracker.Model.Types

/-!
# Configuration

`bt_load_config` of `conf.c`.  Key files are parsed by GLib: what the tracker sees
of one is a text or the null pointer for each option, and an integer which is zero
unless the option holds one.
-/

namespace BtTracker

open BtTracker.Foundation

/-- A key file, by what `g_key_file_get_string` and `g_key_file_get_integer` return
for a group and a key. -/
structure KeyFile where
  getString : String → String → Option Bytes
  getInteger : String → String → BitVec 32

/-- The levels of `syslog`. -/
inductive LogLevel where
  | emerg
  | alert
  | crit
  | err
  | warning
  | notice
  | info
  | debug
  deriving DecidableEq, Repr

/-- The level a text stands for. -/
def LogLevel.ofText (text : Bytes) : LogLevel :=
  if text = ascii "DEBUG" then .debug
  else if text = ascii "INFO" then .info
  else if text = ascii "NOTICE" then .notice
  else if text = ascii "WARNING" then .warning
  else if text = ascii "ERR" then .err
  else if text = ascii "CRIT" then .crit
  else if text = ascii "ALERT" then .alert
  else if text = ascii "EMERG" then .emerg
  else .info

/-- The restriction a text stands for. -/
def BtRestriction.ofText (text : Bytes) : BtRestriction :=
  if text = ascii "whitelist" then .whitelist
  else if text = ascii "blacklist" then .blacklist
  else .none

/-- All of `bt_config_t`; a text may be null. -/
structure BtOptions where
  bttrackerAddr : Option Bytes
  bttrackerPort : BitVec 16
  bttrackerLogLevelMask : LogLevel
  threadMax : BitVec 16
  threadMaxIdleTime : BitVec 32
  announceWaitTime : BitVec 32
  announcePeerTtl : BitVec 32
  announceMaxNumwant : BitVec 16
  redisSocketPath : Option Bytes
  redisHost : Option Bytes
  redisPort : BitVec 16
  redisTimeout : BitVec 32
  redisDb : BitVec 16
  redisKeyPrefix : Option Bytes
  infoHashRestriction : BtRestriction

/-- What the workers read of the options.  The prefix is printed into every key, and
without a path the host is connected to, so neither may be null. -/
def BtOptions.config? (options : BtOptions) : Option BtConfig := do
  let keyPrefix ← options.redisKeyPrefix
  let redisHost ←
    match options.redisSocketPath with
    | some _ => some (options.redisHost.getD [])
    | none => options.redisHost
  some {
    announceWaitTime := options.announceWaitTime
    announcePeerTtl := options.announcePeerTtl
    announceMaxNumwant := options.announceMaxNumwant
    redisSocketPath := options.redisSocketPath
    redisHost := redisHost
    redisPort := options.redisPort
    redisTimeout := options.redisTimeout
    redisDb := options.redisDb
    redisKeyPrefix := keyPrefix
    infoHashRestriction := options.infoHashRestriction }

/-- The outcomes of `bt_load_config`: it returns false, compares the null pointer
with a text, or fills the structure. -/
inductive Loaded where
  | failed
  | fault
  | loaded (options : BtOptions)

/-- The structure as `bt_load_config` fills it, once the two texts that it compares
are known. -/
def KeyFile.options (file : KeyFile) (restriction level : Bytes) : BtOptions where
  bttrackerAddr := file.getString "BtTracker" "Address"
  bttrackerPort := (file.getInteger "BtTracker" "Port").setWidth 16
  bttrackerLogLevelMask := .ofText level
  threadMax := (file.getInteger "Threading" "MaxThreads").setWidth 16
  threadMaxIdleTime := file.getInteger "Threading" "MaxIdleTime"
  announceWaitTime := file.getInteger "Announce" "WaitTime"
  announcePeerTtl := file.getInteger "Announce" "PeerTTL"
  announceMaxNumwant := (file.getInteger "Announce" "MaxNumWant").setWidth 16
  redisSocketPath := file.getString "Redis" "SocketPath"
  redisHost := file.getString "Redis" "Host"
  redisPort := (file.getInteger "Redis" "Port").setWidth 16
  redisTimeout := file.getInteger "Redis" "Timeout"
  redisDb := (file.getInteger "Redis" "DB").setWidth 16
  redisKeyPrefix := file.getString "Redis" "KeyPrefix"
  infoHashRestriction := .ofText restriction

/-- `bt_load_config`; there is no key file if it could not be loaded. -/
def btLoadConfig : Option KeyFile → Loaded
  | none => .failed
  | some file =>
      match file.getString "Announce" "InfoHashRestriction",
          file.getString "BtTracker" "LogLevel" with
      | some restriction, some level => .loaded (file.options restriction level)
      | _, _ => .fault

end BtTracker

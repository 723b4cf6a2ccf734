import NetatalkClient.Daemon.Model.Read
/-!
# Cmdline: downloading one file

`retrieve_file` of `cmdline_afp.c` asks for the size of a file, opens it and
copies it to a local descriptor: one `afp_sl_read` after another, each of
which may bring less than was asked for, and each of which is written with
as many calls of `write` as it takes. What the daemon does, and how each
`write` comes out, are parameters.
-/

namespace NetatalkClient

open Octets

/-- How a `write` comes out: with a part of the octets, or with an error. -/
inductive LocalWrite where
  | wrote (n : ℕ)
  | failed (errno : { e : ℤ // 0 < e })
  deriving DecidableEq

/-- A download under way: the state of the daemon, what was written to the
descriptor, and the number of calls of `write` so far. -/
structure Download (σ : Type) where
  daemon : σ
  written : Octets
  writes : ℕ

/-- What `retrieve_file` consults. -/
structure DownloadConfig (σ : Type) where
  /-- `vol_id`, if a volume is attached. -/
  volid : Option ℕ
  getServerPath : Octets → Option Octets
  /-- With `st_size`. -/
  afpSlStat : Octets → StateM σ (ℤ × ℤ)
  /-- With the file's handle. -/
  afpSlOpen : Octets → StateM σ (ℤ × ℕ)
  afpSlClose : ℕ → StateM σ Unit
  exchange : Octets → StateM σ (Except ℤ (List Wakeup))
  /-- How the calls of `write` come out. -/
  write : ℕ → LocalWrite

/-- `BUF_SIZE`. -/
def bufSize : ℕ := 102400

namespace Download

variable {σ : Type} (cfg : DownloadConfig σ)

/-- A call of the daemon. -/
def onDaemon {α : Type} (m : StateM σ α) : StateM (Download σ) α := fun d =>
  let (a, daemon) := m.run d.daemon
  (a, { d with daemon })

/-- `write`: the amount, or `errno`. -/
def write (data : Octets) : StateM (Download σ) (Except ℤ ℕ) := fun d =>
  match cfg.write d.writes with
  | .failed errno => (.error errno.val, { d with writes := d.writes + 1 })
  | .wrote n =>
      (.ok (min n data.length),
        { d with written := d.written ++ data.take n, writes := d.writes + 1 })

/-- The loop of `write_all_fd`. Each turn writes an octet at least, so
`data.length` turns are enough. -/
def writeAllLoop (data : Octets) : ℕ → ℕ → StateM (Download σ) ℤ
  | 0, _ => return 0
  | turns + 1, written => do
      if data.length ≤ written then return 0
      match ← write cfg (data.drop written) with
      | .error errno => return -errno
      | .ok amount =>
          if amount = 0 then return -eio
          writeAllLoop data turns (written + amount)

/-- `write_all_fd`. -/
def writeAllFd (data : Octets) : StateM (Download σ) ℤ := writeAllLoop cfg data data.length 0

/-- The loop of `retrieve_file`: -1, or `total`. It need not come to an end
after the given number of turns. -/
def retrieveLoop (volid fileid : ℕ) :
    ℕ → ℕ → ℕ → StateM (Download σ) (Option (Except ℤ ℕ))
  | 0, _, _ => return none
  | turns + 1, total, offset => do
      match ← onDaemon (afpSlRead cfg.exchange volid fileid 0 offset bufSize) with
      | .error _ => return some (.error (-1))
      | .ok r =>
          if r.received = 0 then return some (.ok total)
          -- `buf` was cleared before the read
          if (← writeAllFd cfg (r.data.window r.received)) < 0 then return some (.error (-1))
          let total := (total + r.received) % 0x10000000000000000
          let offset := (offset + r.received) % 0x10000000000000000
          if r.eof ≠ 0 then return some (.ok total)
          retrieveLoop volid fileid turns total offset

/-- The end of `retrieve_file`: its result and `amount_written`. -/
def retrieved (stSize : ℤ) : Except ℤ ℕ → ℤ × ℕ
  | .error ret => (ret, 0)
  | .ok total => if stSize < 0 ∨ (total : ℤ) ≠ stSize then (-eio, 0) else (0, total)

/-- `retrieve_file`: its result and `amount_written`. -/
def retrieveFile (turns : ℕ) (arg : Octets) : StateM (Download σ) (Option (ℤ × ℕ)) := do
  match cfg.volid, cfg.getServerPath arg with
  | none, _ => return some (-1, 0)
  | some _, none => return some (-1, 0)
  | some volid, some path =>
      let (ret, stSize) ← onDaemon (cfg.afpSlStat path)
      if ret ≠ 0 then return some (-1, 0)
      let (ret, fileid) ← onDaemon (cfg.afpSlOpen path)
      if ret ≠ 0 then return some (-1, 0)
      match ← retrieveLoop cfg volid fileid turns 0 0 with
      | none => return none
      | some result =>
          if fileid ≠ 0 then onDaemon (cfg.afpSlClose fileid)
          return some (retrieved stSize result)

end Download

end NetatalkClient

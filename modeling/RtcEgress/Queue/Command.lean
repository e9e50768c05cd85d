import RtcEgress.Lib.Glob
import RtcEgress.Lib.KeyedLists
import RtcEgress.Lib.Prog
import RtcEgress.Queue.Task

/-!
# Redis の状態と命令

`pkg/queue` と `pkg/egress` の関数が出す Redis の命令を、一つの命令または一つの `TxPipeline` を一つの
`Cmd` として並べ、その応答と効果を定める。記録を書き戻す命令は、もとになった局所の写し `read` と、関数が
計算に使った値を引数に持ち、書く値はそこから計算する。ポッドの中だけで決まる結果（ワーカーへの割り当て、
HTTP の応答など）も命令として並べ、応答は任意とする。

キーの名前空間は互いに重ならないので、記録・リース・重複排除・リストを別の写像で表す。記録とリストの
有効期限（`rq.ttl`）には達しないものとし、期限はリースだけが持つ。
-/

namespace RtcEgress.Queue

open RtcEgress.Lib

/-! ## 命令 -/

inductive WorkerManagerMode where
  | modeNative | modeWeb
  deriving DecidableEq

/-- 記録またはリースを読む場所。 -/
inductive Reader where
  | publishStop | claim (podID : String) | worker | result (state : TaskState) | renew (podID : String)
  | recover | aged | moveBack | deferTask | deferOriginal | completion
  | stopLookup (podID : String) (mode : WorkerManagerMode)
  deriving DecidableEq

/-- ウェブの録画サービスへの要求の種類。 -/
inductive WebAction where
  | start | stop | status
  deriving DecidableEq

/-- `WebRecorderRequest`。 -/
structure WebRecorderRequest where
  requestID : String
  action : WebAction
  taskID : String
  url : String := ""
  options : Payload := []

/-- `WebRecorderResponse` のうち、代理が読む欄。 -/
structure WebRecorderResponse where
  status : String
  error : String

/-- Redis の命令、`TxPipeline`、およびポッドの中の処理。`startNative` で送信に失敗したときと、
`stopOnWorker` で三度とも送れなかったときは、`wm.Mutex` を二重に求めて戻らない。これは、その命令が
実行されないことで表す。 -/
inductive Cmd where
  | timeNow
  | generateTaskID (cmd channel requestID : String)
  | existsDedupe (key : String)
  | getTask (reader : Reader) (id : String)
  | getLease (reader : Reader) (id : String)
  | keys (pattern : String)
  | lrange (key : String)
  | lpos (queue id : String)
  | watch (id queue : String)
  | publishTx (queue : String) (task : Task)
  | claimTx (podID id : String) (now : Nat) (read : Task)
  | setWorker (id : String) (workerID : Int) (read : Task)
  | setResult (id : String) (state : TaskState) (message : String) (now : Nat) (read : Task)
  | delDedupe (id key : String)
  | renewTx (podID id : String) (now : Nat) (read : Task)
  | recoverTx (queue id : String) (now : Nat) (read : Task)
  | moveBackTx (podID id : String) (read : Task)
  | timeoutTx (id queue : String) (watched : Nat × Nat) (age : Nat) (read : Task)
  | brPopLPush (podID queue : String)
  | setTarget (podID id target : String) (workerID : Int) (read : Task)
  | deferTx (podID id target : String)
  | lrem (queue id : String)
  | lpush (queue id : String)
  | lremLast (queue id : String)
  | delLease (id : String)
  | validateStartTaskRequest (task : Task)
  | startNative (podID : String) (task : Task)
  | nativeStatus (podID : String) (task : Task)
  | findWorker (podID : String) (stopTask originalTask : Task)
  | stopOnWorker (podID : String) (workerID : Nat) (originalTaskID : String) (stopTask : Task)
  | beginFail (podID id : String)
  | workerPresent (podID : String) (workerID : Int)
  | createProxy (podID : String)
  | hasProxy (podID : String)
  | httpPost (podID : String) (request : WebRecorderRequest)

/-- 命令ごとの応答の型。エラーを返しうるものは、その文を `Option` や `Except` で返す。 -/
abbrev Cmd.Resp : Cmd → Type
  | .timeNow => Nat
  | .generateTaskID _ _ _ => String
  | .existsDedupe _ => Bool
  | .getTask _ _ => Option Task
  | .getLease _ _ => Option String
  | .keys _ => List String
  | .lrange _ => List String
  | .lpos _ _ => Option Nat
  | .watch _ _ => Nat × Nat
  | .timeoutTx _ _ _ _ _ => Bool
  | .brPopLPush _ _ => Option String
  | .validateStartTaskRequest _ => Option String
  | .startNative _ _ => Except String Nat
  | .nativeStatus _ _ => Option String
  | .findWorker _ _ _ => Option Nat
  | .stopOnWorker _ _ _ _ => Bool
  | .beginFail _ _ => Bool
  | .workerPresent _ _ => Bool
  | .hasProxy _ => Bool
  | .httpPost _ _ => Except String WebRecorderResponse
  | _ => Unit

/-- 命令を順に出すプログラム。 -/
abbrev P (α : Type) := Prog Cmd Cmd.Resp α

abbrev perform (c : Cmd) : P c.Resp := Prog.perform c

/-! ## 状態 -/

/-- リースのキー。`expireAt` に達すると消えうる。 -/
structure Lease where
  holder : String
  expireAt : Nat

/-- Redis の内容と、それに付随する状態。`taskRev` と `listRev` はキーが変更された回数で、WATCH が使う。
`used` は生成したタスクの名前、`proxy` はウェブの録画の代理を作ったポッドである。 -/
structure World where
  now : Nat
  task : String → Option Task
  lease : String → Option Lease
  dedupe : String → Option String
  lists : KeyedLists String String
  taskRev : String → Nat
  listRev : String → Nat
  used : List String
  proxy : String → Bool

/-- 何も保存していない状態。 -/
def World.init : World where
  now := 0
  task := fun _ => none
  lease := fun _ => none
  dedupe := fun _ => none
  lists := .empty
  taskRev := fun _ => 0
  listRev := fun _ => 0
  used := []
  proxy := fun _ => false

namespace World

/-- キーのリスト。 -/
def list (w : World) (q : String) : List String := w.lists.get q

/-- SET（記録のキー）。 -/
def setTask (w : World) (id : String) (t : Task) : World :=
  { w with
    task := fun x => if x = id then some t else w.task x
    taskRev := fun x => if x = id then w.taskRev x + 1 else w.taskRev x }

/-- SET（リースのキー、期限付き）。 -/
def setLease (w : World) (id holder : String) (ttl : Nat) : World :=
  { w with lease := fun x => if x = id then some ⟨holder, w.now + ttl⟩ else w.lease x }

/-- EXPIRE（リースのキー）。キーがなければ何もしない。 -/
def expireLease (w : World) (id : String) (ttl : Nat) : World :=
  { w with
    lease := fun x => if x = id then (w.lease x).map fun l => { l with expireAt := w.now + ttl } else w.lease x }

/-- DEL（リースのキー）。期限による消滅もこの形である。 -/
def delLease (w : World) (id : String) : World :=
  { w with lease := fun x => if x = id then none else w.lease x }

def setDedupe (w : World) (key id : String) : World :=
  { w with dedupe := fun x => if x = key then some id else w.dedupe x }

def delDedupe (w : World) (key : String) : World :=
  { w with dedupe := fun x => if x = key then none else w.dedupe x }

/-- キーのリストを置き換える。`changed` なら変更に数える。 -/
def setList (w : World) (q : String) (l : List String) (changed : Bool := true) : World :=
  { w with
    lists := w.lists.put q l
    listRev := fun x => if x = q ∧ changed then w.listRev x + 1 else w.listRev x }

/-- LPUSH。 -/
def lpush (w : World) (q id : String) : World := w.setList q (id :: w.list q)

/-- RPUSH。 -/
def rpush (w : World) (q id : String) : World := w.setList q (w.list q ++ [id])

/-- LREM 1。含まれないときは変更に数えない。 -/
def lrem (w : World) (q id : String) : World := w.setList q ((w.list q).erase id) (id ∈ w.list q)

/-- LREM -1。 -/
def lremLast (w : World) (q id : String) : World :=
  w.setList q ((w.list q).reverse.erase id).reverse (id ∈ w.list q)

/-- RPOPLPUSH で `src` の末尾の `id` を移した結果。 -/
def rpoplpush (w : World) (src dst id : String) : World := (w.setList src (w.list src).dropLast).lpush dst id

/-- 監視するキーの変更の回数。 -/
def revs (w : World) (id queue : String) : Nat × Nat := (w.taskRev id, w.listRev queue)

end World

/-! ## 命令の意味 -/

/-- 状態から決まらない応答。 -/
structure Oracle where
  text : String := ""
  err : Option String := none
  num : Option Nat := none
  flag : Bool := false
  http : Except String WebRecorderResponse := .error ""

/-- 命令の応答。生成する名前は、これまでに使われていないものに限る。 -/
def Cmd.reply (o : Oracle) (w : World) : (c : Cmd) → Option c.Resp
  | .timeNow => some w.now
  | .generateTaskID _ _ _ => if o.text ∈ w.used then none else some o.text
  | .existsDedupe key => some (w.dedupe key).isSome
  | .getTask _ id => some (w.task id)
  | .getLease _ id => some ((w.lease id).map Lease.holder)
  | .keys pattern => some (w.lists.keys.filter fun k => globMatch pattern.toList k.toList)
  | .lrange key => some (w.list key)
  | .lpos queue id => some (if id ∈ w.list queue then some ((w.list queue).idxOf id) else none)
  | .watch id queue => some (w.revs id queue)
  | .publishTx _ _ => some ()
  | .claimTx _ _ _ _ => some ()
  | .setWorker _ _ _ => some ()
  | .setResult _ _ _ _ _ => some ()
  | .delDedupe _ _ => some ()
  | .renewTx _ _ _ _ => some ()
  | .recoverTx _ _ _ _ => some ()
  | .moveBackTx _ _ _ => some ()
  | .timeoutTx id queue watched _ _ => some (watched == w.revs id queue)
  | .brPopLPush _ queue => some (w.list queue).getLast?
  | .setTarget _ _ _ _ _ => some ()
  | .deferTx _ _ _ => some ()
  | .lrem _ _ => some ()
  | .lpush _ _ => some ()
  | .lremLast _ _ => some ()
  | .delLease _ => some ()
  | .validateStartTaskRequest _ => some o.err
  | .startNative _ _ => some (match o.num with
    | some n => .ok n
    | none => .error o.text)
  | .nativeStatus _ _ => some o.err
  | .findWorker _ _ _ => some o.num
  | .stopOnWorker _ _ _ _ => some o.flag
  | .beginFail _ _ => some o.flag
  | .workerPresent _ _ => some o.flag
  | .createProxy _ => some ()
  | .hasProxy podID => some (w.proxy podID)
  | .httpPost _ _ => some o.http

/-- 命令の効果。`TxPipeline` は、並べた命令を順に、途中に他の命令を挟まずに実行する。 -/
def Cmd.effect (w : World) : (c : Cmd) → c.Resp → World
  | .generateTaskID _ _ _, id => { w with used := id :: w.used }
  | .publishTx queue task, _ => ((w.lpush queue task.id).setTask task.id task).setDedupe task.dedupeKey task.id
  | .claimTx podID id now read, _ => (w.setTask id (read.claimed podID now)).setLease id podID leaseTimeout
  | .setWorker id workerID read, _ => w.setTask id (read.withWorker workerID)
  | .setResult id state message now read, _ => w.setTask id (read.withResult state message now)
  | .delDedupe _ key, _ => w.delDedupe key
  | .renewTx _ id now read, _ => (w.setTask id (read.renewed now)).expireLease id leaseTimeout
  | .recoverTx queue id now read, _ =>
      (((w.setTask id (read.recovered now)).lpush (buildQueueKey read.cmd read.channel) id).lrem queue id).delLease id
  | .moveBackTx podID id read, _ =>
      (((w.setTask id read.movedBack).lpush (buildQueueKey read.cmd read.channel) id).lrem
        (buildProcessingQueueKey podID) id).delLease id
  | .timeoutTx id queue _ age read, true => (w.setTask id (read.timedOut age)).lrem queue id
  | .brPopLPush podID queue, some id => w.rpoplpush queue (buildProcessingQueueKey podID) id
  | .setTarget _ id target workerID read, _ => w.setTask id (read.retargeted target workerID)
  | .deferTx podID id target, _ => (w.lrem (buildProcessingQueueKey podID) id).rpush (stopQueueKey target) id
  | .lrem queue id, _ => w.lrem queue id
  | .lpush queue id, _ => w.lpush queue id
  | .lremLast queue id, _ => w.lremLast queue id
  | .delLease id, _ => w.delLease id
  | .createProxy podID, _ => { w with proxy := fun x => x == podID || w.proxy x }
  | _, _ => w

/-- 環境の変化。時間が進むか、期限に達したリースのキーが消える。 -/
inductive Env where
  | tick (d : Nat)
  | leaseExpire (id : String)

def Env.apply (w : World) : Env → Option World
  | .tick d => some { w with now := w.now + d }
  | .leaseExpire id =>
      match w.lease id with
      | some l => if l.expireAt ≤ w.now then some (w.delLease id) else none
      | none => none

end RtcEgress.Queue

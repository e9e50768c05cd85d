import Mathlib.Data.List.Dedup
import RtcEgress.Lib.Expiring
import RtcEgress.Lib.System

/-!
# Pod の様子

`pkg/health/manager.go` の登録、心拍、地域の集計を写す。どの Pod も、自分の様子を期限とともに書き、地域の集計を繰り返す。集計は
キーを一つずつ読み、その間に他の Pod が書く。時刻はミリ秒である。
-/

namespace RtcEgress.Health

open RtcEgress.Lib

def podHealthTTL : Nat := 60000

def statsInterval : Nat := 5000

/-! ## 記録 -/

structure PodInfo where
  podID : String
  region : String
  mode : Int
  maxWorkers : Int
  currentWorkers : Int
  status : String
  lastHeartbeat : Nat
  version : String
  startedAt : Nat
  deriving DecidableEq

structure CapacityMetrics where
  activeTasks : Int
  availableWorkers : Int
  queueBacklog : Int
  cpuUsage : Rat
  memoryUsage : Rat
  lastUpdated : Nat
  deriving DecidableEq

structure RegionalStats where
  totalPods : Int := 0
  healthyPods : Int := 0
  totalWorkers : Int := 0
  nativeWorkers : Int := 0
  activeTasks : Int := 0
  availableCapacity : Int := 0
  queueBacklog : Int := 0
  avgCPU : Rat := 0
  avgMemory : Rat := 0
  lastUpdated : Nat := 0
  deriving DecidableEq

/-- 一つのプロセスと、その `maxWorkers`。 -/
structure HealthManager where
  podID : String
  region : String
  version : String
  startTime : Nat
  mode : Int
  maxWorkers : Int

/-- `float64` の演算。 -/
structure Floats where
  add : Rat → Rat → Rat
  div : Rat → Rat → Rat

/-! ## 心拍 -/

def calculatePodStatus (cpuPercent memPercent : Rat) : String :=
  if 90 < cpuPercent ∨ 90 < memPercent then "unhealthy"
  else if 75 < cpuPercent ∨ 75 < memPercent then "degraded"
  else "healthy"

namespace HealthManager

def podInfo (hm : HealthManager) (status : String) (now : Nat) : PodInfo where
  podID := hm.podID
  region := hm.region
  mode := hm.mode
  maxWorkers := hm.maxWorkers
  currentWorkers := hm.maxWorkers
  status := status
  lastHeartbeat := now
  version := hm.version
  startedAt := hm.startTime

def capacityMetrics (hm : HealthManager) (activeTaskCount : Nat) (cpu memory : Rat) (now : Nat) : CapacityMetrics where
  activeTasks := activeTaskCount
  availableWorkers := hm.maxWorkers - activeTaskCount
  queueBacklog := 0
  cpuUsage := cpu
  memoryUsage := memory
  lastUpdated := now

end HealthManager

/-! ## 集計 -/

/-- Pod を一つずつ数える。 -/
def accumulate (f : Floats) (total : RegionalStats) (cpu memory : Rat) : List PodInfo → List CapacityMetrics →
    RegionalStats × Rat × Rat
  | [], _ => (total, cpu, memory)
  | pod :: pods, capacity =>
      let total := { total with
        healthyPods := if pod.status = "healthy" then total.healthyPods + 1 else total.healthyPods
        totalWorkers := total.totalWorkers + pod.maxWorkers
        nativeWorkers := if pod.mode = 0 then total.nativeWorkers + pod.maxWorkers else total.nativeWorkers }
      match capacity with
      | [] => accumulate f total cpu memory pods []
      | cap :: capacity =>
          accumulate f { total with
            activeTasks := total.activeTasks + cap.activeTasks
            availableCapacity := total.availableCapacity + cap.availableWorkers }
            (f.add cpu cap.cpuUsage) (f.add memory cap.memoryUsage) pods capacity

def regionalStats (f : Floats) (pods : List PodInfo) (capacity : List CapacityMetrics) (now : Nat) : RegionalStats :=
  let (total, cpu, memory) := accumulate f { totalPods := pods.length, lastUpdated := now } 0 0 pods capacity
  if capacity = [] then total
  else { total with avgCPU := f.div cpu capacity.length, avgMemory := f.div memory capacity.length }

def regionOf (pod : PodInfo) : String := if pod.region = "" then "global" else pod.region

/-- 読み終えた Pod の様子。 -/
abbrev Reading := PodInfo × CapacityMetrics

def statsOf (f : Floats) (region : String) (readings : List Reading) (now : Nat) : RegionalStats :=
  let members := readings.filter fun r => regionOf r.1 = region
  regionalStats f (members.map Prod.fst) (members.map Prod.snd) now

/-! ## 一歩ずつの実行 -/

/-- 集計の次に行うこと。`started` は、キーを並べた時刻である。 -/
inductive Phase where
  | idle
  | listing (started : Nat) (podIDs : List String) (readings : List Reading)
  | reading (started : Nat) (podID : String) (info : PodInfo) (podIDs : List String) (readings : List Reading)
  | storing (started : Nat) (regions : List String) (readings : List Reading)

/-- 書いた値。登録は容量を書かない。 -/
structure Write where
  process : Nat
  time : Nat
  info : PodInfo
  capacity : Option CapacityMetrics

/-- 表は、キーの前置きを除いた名前で引く。`writes` は、書いた順の逆に並ぶ。 -/
structure State where
  now : Nat
  pods : Expiring String PodInfo
  capacities : Expiring String CapacityMetrics
  regions : Expiring String RegionalStats
  phases : Nat → Phase
  writes : List Write

inductive Op where
  | tick (duration : Nat)
  | registerPod (i : Nat)
  /-- 始めに時刻を読み、負荷を一秒の間測ってから書く。 -/
  | sendHeartbeat (i sampledAt activeTaskCount : Nat) (cpu memory : Rat)
  /-- Redis が Pod のキーを挙げる順は決まっていない。 -/
  | calculateRegionalStats (i : Nat) (podIDs : List String)
  /-- `ok` でなければ、命令が失敗した。`choice` は、次に書く地域を選ぶ。 -/
  | advance (i : Nat) (ok : Bool) (choice : Nat)

namespace State

def init : State where
  now := 0
  pods := ∅
  capacities := ∅
  regions := ∅
  phases := fun _ => .idle
  writes := []

def setPhase (s : State) (i : Nat) (phase : Phase) : State := { s with phases := Function.update s.phases i phase }

def write (s : State) (w : Write) : State :=
  { s with
    pods := s.pods.set s.now podHealthTTL w.info.podID w.info
    capacities := match w.capacity with
      | some capacity => s.capacities.set s.now podHealthTTL w.info.podID capacity
      | none => s.capacities
    writes := w :: s.writes }

def storeRegion (f : Floats) (s : State) (region : String) (readings : List Reading) : State :=
  { s with regions := s.regions.set s.now (2 * statsInterval) region (statsOf f region readings s.now) }

def advance (f : Floats) (s : State) (i : Nat) (ok : Bool) (choice : Nat) : State :=
  match s.phases i with
  | .idle => s
  | .listing started [] readings =>
      s.setPhase i (.storing started (readings.map fun r => regionOf r.1).dedup readings)
  | .listing started (podID :: podIDs) readings =>
      match (s.pods.get s.now podID).filter fun _ => ok with
      | none => s.setPhase i (.listing started podIDs readings)
      | some info => s.setPhase i (.reading started podID info podIDs readings)
  | .reading started podID info podIDs readings =>
      match (s.capacities.get s.now podID).filter fun _ => ok with
      | none => s.setPhase i (.listing started podIDs readings)
      | some capacity => s.setPhase i (.listing started podIDs (readings ++ [(info, capacity)]))
  | .storing started regions readings =>
      match regions[choice]? with
      | some region =>
          (if ok then s.storeRegion f region readings else s).setPhase i (.storing started (regions.erase region) readings)
      | none => if regions = [] then s.setPhase i .idle else s

def step (f : Floats) (processes : Nat → HealthManager) : Op → State → State
  | .tick duration, s => { s with now := s.now + duration }
  | .registerPod i, s =>
      s.write { process := i, time := s.now, info := (processes i).podInfo "healthy" s.now, capacity := none }
  | .sendHeartbeat i sampledAt activeTaskCount cpu memory, s =>
      s.write {
        process := i
        time := s.now
        info := (processes i).podInfo (calculatePodStatus cpu memory) sampledAt
        capacity := some ((processes i).capacityMetrics activeTaskCount cpu memory sampledAt) }
  | .calculateRegionalStats i podIDs, s =>
      match s.phases i with
      | .idle => if podIDs.isPerm (s.pods.alive s.now) then s.setPhase i (.listing s.now podIDs []) else s
      | _ => s
  | .advance i ok choice, s => s.advance f i ok choice

def getRegionalStats (s : State) (region : String) : Option RegionalStats := s.regions.get s.now region

end State

def health (f : Floats) (processes : Nat → HealthManager) : System Op := ⟨State, State.step f processes⟩

end RtcEgress.Health

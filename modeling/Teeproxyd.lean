import Teeproxyd.Fleet.Replay
import Teeproxyd.Ipc.AdminToken
import Teeproxyd.Ipc.Endless
import Teeproxyd.Ipc.LogTail
import Teeproxyd.Ipc.LongLines
import Teeproxyd.Ipc.NewestLog
import Teeproxyd.Ipc.Truthful
import Teeproxyd.Supervision.BootTimeout
import Teeproxyd.Supervision.Deadlines
import Teeproxyd.Supervision.GracefulKill
import Teeproxyd.Supervision.HealthRestarts
import Teeproxyd.Supervision.Hypervisor
import Teeproxyd.Supervision.Incarnations
import Teeproxyd.Supervision.Outages
import Teeproxyd.Supervision.LoopRate
import Teeproxyd.Supervision.Notice
import Teeproxyd.Supervision.Orphans
import Teeproxyd.Supervision.PollTimeout
import Teeproxyd.Supervision.ReapLoop
import Teeproxyd.Supervision.RestartRate
import Teeproxyd.Supervision.Settling
import Teeproxyd.Supervision.StartAll
import Teeproxyd.Supervision.StartingCa
import Teeproxyd.Supervision.StartupGuards

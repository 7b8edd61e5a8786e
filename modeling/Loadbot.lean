import Loadbot.Go
import Loadbot.Pool
import Loadbot.New
import Loadbot.Engine
import Loadbot.Barrier
import Loadbot.Cancel
import Loadbot.Lbot
import Loadbot.Accounting
import Loadbot.Drain
import Loadbot.Lifecycle
import Loadbot.Driver
import Loadbot.Torment

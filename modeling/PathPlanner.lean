import PathPlanner.Basic
import PathPlanner.DubinsPlan
import PathPlanner.DubinsPlan.Suffix
import PathPlanner.DubinsPlan.Samples
import PathPlanner.DubinsPlan.Append
import PathPlanner.Executive.Loop
import PathPlanner.Executive.Cycle
import PathPlanner.Executive.Backoff
import PathPlanner.Executive.RadiusShrink
import PathPlanner.Executive.SuffixCalls
import PathPlanner.Executive.Reuse
import PathPlanner.Executive.Scheduler
import PathPlanner.Executive.MapSlot
import PathPlanner.Executive.Exits
import PathPlanner.Executive.Publish
import PathPlanner.Executive.Timing
import PathPlanner.GaussianObstacles
import PathPlanner.GaussianObstacles.Density
import PathPlanner.PotentialField

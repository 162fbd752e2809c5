import Omnigate.TaskRefund
import Omnigate.TaskSettlement
import Omnigate.Realtime
import Omnigate.TopUpRun
import Omnigate.Redemption
import Omnigate.UserBalances
import Omnigate.TokenBalances
import Omnigate.SubscriptionOrderRun
import Omnigate.SubscriptionGroups
import Omnigate.MidjourneyRefundRun
import Omnigate.ClaudeStreamLossless
import Omnigate.ResponsesRoundTrip
import Omnigate.SecurityBump
import Omnigate.RefreshRotation
import Omnigate.AuthFlowRun
import Omnigate.SystemTaskRecovery
import Omnigate.ChannelDisabled
import Omnigate.ChannelManual
import Omnigate.ChannelUpdates
import Omnigate.TextCharge
import Omnigate.ModelMapping
import Omnigate.GroupSchedule
import Omnigate.TaskRatios
import Omnigate.SubscriptionCycle
import Omnigate.TopUpPrice
import Omnigate.ChatRequest
import Omnigate.ChannelFairness
import Omnigate.RateLimit
import Omnigate.TierExpr
import Omnigate.GeminiSchema
import Omnigate.LogCleanup

import Projectnelth.ActionButtonRuns
import Projectnelth.ArenaTeamMembership
import Projectnelth.ArraySizes
import Projectnelth.AuctionHouseSale
import Projectnelth.BattlegroundQueueBooks
import Projectnelth.BattlegroundQueueFilling
import Projectnelth.BattlegroundQueueMixed
import Projectnelth.BattlegroundQueuePools
import Projectnelth.BattlegroundQueueRepresentation
import Projectnelth.BattlegroundQueueStart
import Projectnelth.BattlegroundQueueTiming
import Projectnelth.ByteBlock
import Projectnelth.ByteBufferPatch
import Projectnelth.ByteBufferReuse
import Projectnelth.ByteBufferRoundTrip
import Projectnelth.CalendarCleaning
import Projectnelth.CalendarPackets
import Projectnelth.ChannelRuns
import Projectnelth.ChatCommandDispatch
import Projectnelth.ChatCommandModel
import Projectnelth.ConditionEvaluation
import Projectnelth.ConditionSearch
import Projectnelth.CyclicRun
import Projectnelth.DbcFaithful
import Projectnelth.DbcModel
import Projectnelth.DbcProduced
import Projectnelth.DbcStrings
import Projectnelth.DbcTables
import Projectnelth.DurationStrings
import Projectnelth.EventMapGroups
import Projectnelth.EventMapTiming
import Projectnelth.EventProcessorLaw
import Projectnelth.FirstOfKey
import Projectnelth.GameEventModel
import Projectnelth.GameEventTiming
import Projectnelth.GreedyFill
import Projectnelth.GroupDbIds
import Projectnelth.GroupLootRolls
import Projectnelth.GroupMembership
import Projectnelth.GroupRoundRobin
import Projectnelth.GuildBankItemMoves
import Projectnelth.GuildBankMoney
import Projectnelth.GuildBankWithdrawals
import Projectnelth.GuildLogModel
import Projectnelth.GuildLogRing
import Projectnelth.GuildRankRecords
import Projectnelth.GuildRankStructure
import Projectnelth.InstanceBindRuns
import Projectnelth.InstanceIdModel
import Projectnelth.InstanceIdRuns
import Projectnelth.InstanceResetRuns
import Projectnelth.InstanceResetSchedule
import Projectnelth.InstanceResetTables
import Projectnelth.InstanceResetTimes
import Projectnelth.InstanceResets
import Projectnelth.ItemCountAgreement
import Projectnelth.LastWrite
import Projectnelth.LfgGroups
import Projectnelth.LfgQueueModel
import Projectnelth.LfgRoleCheck
import Projectnelth.LfgRoles
import Projectnelth.LfgSearch
import Projectnelth.LfgSearchCompleteness
import Projectnelth.LfgVoteKick
import Projectnelth.LoginQueueRuns
import Projectnelth.LootCounter
import Projectnelth.LootGroupModel
import Projectnelth.LootGroupOdds
import Projectnelth.LootSlots
import Projectnelth.LootStacks
import Projectnelth.LootTemplateAgreement
import Projectnelth.LootTemplateDrops
import Projectnelth.LootTemplateModel
import Projectnelth.LootTemplateWalks
import Projectnelth.LootView
import Projectnelth.MailItems
import Projectnelth.MotionMasterRuns
import Projectnelth.MovementInfoRoundTrip
import Projectnelth.PackedGuid
import Projectnelth.ParentMap
import Projectnelth.PhaseModel
import Projectnelth.PhaseRuns
import Projectnelth.PoolAccounting
import Projectnelth.PoolNesting
import Projectnelth.PoolNestingRuns
import Projectnelth.QuestPoolRotation
import Projectnelth.ReputationCounts
import Projectnelth.RouletteWheel
import Projectnelth.RoundRobin
import Projectnelth.RunInvariant
import Projectnelth.SocialLists
import Projectnelth.SoloQueueMembership
import Projectnelth.SoloQueueUpdate
import Projectnelth.SortedIndices
import Projectnelth.StableMultimap
import Projectnelth.StackSplit
import Projectnelth.TaskSchedulerAsync
import Projectnelth.TaskSchedulerTimed
import Projectnelth.ThreatContainers
import Projectnelth.ThreatVictims
import Projectnelth.TradeAgreement
import Projectnelth.Utf8Codec
import Projectnelth.Utf8Helpers
import Projectnelth.VehicleRuns
import Projectnelth.VoidStorageTransfers
import Projectnelth.WhileLoop
import Projectnelth.WorldSocketFraming
import Projectnelth.WorldSocketOutput
